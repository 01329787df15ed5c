import PageBindings.Script.Step

/-!
# Sessions on a page in a browser

A session is a script on a page in a browser, without any client at first.  Clients are started as scripts of the page
start them; besides the steps of clients and of the page there are calls of single capabilities, ends of requests and
events of event sources, properties of elements, and faults of the browser.
-/

namespace PageBindings.Script

/-- A call of one capability of the page. -/
inductive BrowserCall where
  | query (below : Option NodeRef) (selector : String)
  | contains (node other : NodeRef)
  | isConnected (node : NodeRef)
  | hasAttribute (node : NodeRef) (name : String)
  | attributeOf (node : NodeRef) (name : String)
  | value (node : NodeRef)
  | create (html : String)
  | replace (node other : NodeRef)
  | append (node other : NodeRef)
  | prepend (node other : NodeRef)
  | remove (node : NodeRef)
  | reset (node : NodeRef)
  | claim (node : NodeRef) (eventType : String)
  | release (node : NodeRef) (eventType : String)

/-- The world with a page and what came up on the way. -/
def withNotices (world : World BrowserPage) (page : BrowserPage) (notices : List Notice) : World BrowserPage :=
  world.withScene ({ world.toScene with page }.noteAll notices)

/-- Performs a call of one capability. -/
def BrowserCall.perform (world : World BrowserPage) : BrowserCall → Result BrowserPage
  | .query none selector => found (Page.query world.page none selector)
  | .query (some below) selector => withNode world below fun below =>
    found (Page.query world.page (some below) selector)
  | .contains node other => withNode world node fun node => withNode world other fun other =>
    (world, .ok (.flag (Page.contains world.page node other)))
  | .isConnected node => withNode world node fun node => (world, .ok (.flag (Page.isConnected world.page node)))
  | .hasAttribute node name => withNode world node fun node =>
    (world, .ok (.flag (Page.hasAttribute world.page node name)))
  | .attributeOf node name => withNode world node fun node =>
    (world, .ok (Answer.ofOption .text (Page.attribute? world.page node name)))
  | .value node => withNode world node fun node =>
    (world, .ok (Answer.ofOption .text (Page.value? world.page node)))
  | .create html =>
    match Page.create world.page html with
    | .ok (node, page) => ({ world with page }, .ok (Answer.ofOption .number node))
    | .error cause => (world, .error (.page cause))
  | .replace node other => withNode world node fun node => withNode world other fun other =>
    afterChange world (Page.replace world.page node other)
  | .append node other => withNode world node fun node => withNode world other fun other =>
    afterChange world (Page.append world.page node other)
  | .prepend node other => withNode world node fun node => withNode world other fun other =>
    afterChange world (Page.prepend world.page node other)
  | .remove node => withNode world node fun node => afterChange world (Page.remove world.page node)
  | .reset node => withNode world node fun node => afterChange world (Page.reset world.page node)
  | .claim node eventType => withNode world node fun node =>
    let (fresh, page, notices) := world.page.claim node eventType
    (withNotices world page notices, .ok (.flag fresh))
  | .release node eventType => withNode world node fun node =>
    let (page, notices) := world.page.release node eventType
    (withNotices world page notices, .ok .nothing)
where
  found : Except PageError (List NodeId) → Result BrowserPage
    | .ok nodes => (world, .ok (.nodes nodes))
    | .error cause => (world, .error (.page cause))

/-- What a request that ended says of its status and its text; both can fail to be read. -/
structure RequestEnd where
  status : Option Nat
  /-- Without the inner value there is no text. -/
  text : Option (Option String)

/-- The outcome of a request that ended.  A status of zero means that there was no response. -/
def RequestEnd.outcome (ended : RequestEnd) : Outcome :=
  match ended.status with
  | none | some 0 => .error { operation := "XMLHttpRequest", detail := "network error" }
  | some status =>
    match ended.text with
    | none => BrowserPage.thrown "XMLHttpRequest.responseText" "InvalidStateError"
    | some text => .ok { status, body := text.getD "" }

/-- An event of an event source; only messages have data, and only text counts. -/
structure SourceEvent where
  type : String
  data : Option String

/-- What an event of a source in the given state means to the client that opened it. -/
def SourceEvent.toSignal? (event : SourceEvent) (readyState : Nat) : Option StreamSignal :=
  if event.type = "open" then some .opening
  else if event.type = "message" then event.data.map .message
  else some (.failure (event.type ++ " (readyState " ++ toString readyState ++ ")"))

/-- A step of a session in a browser.  Clients are counted in the order in which they were started. -/
inductive BrowserStep where
  | startClient (settings : Option String)
  /-- Starts a client that the session does not get to see. -/
  | startPage (settings : Option String)
  | dropClient (client : Nat)
  | withClient (client : Nat) (step : ClientStep)
  | onPage (step : PageStep)
  | call (call : BrowserCall)
  /-- Attaches to the document anew and lists the elements with an id. -/
  | attach
  | finish (request : Nat) (ended : RequestEnd)
  | source (source : Nat) (state : Option Nat) (event : SourceEvent)
  | setProperty (node : NodeRef) (value : MarkProperty)
  | property (node : NodeRef)
  | setFault (fault : BrowserFault) (on : Bool)

/-- Makes a client and starts it; if that fails, there is no client. -/
def startClient (world : World BrowserPage) (settings : Settings) :
    World BrowserPage × Except PageError (ClientRef × Nat) :=
  match world.page.findDocument with
  | .error cause => (world, .error cause)
  | .ok () =>
    let (world, client) := world.addClient settings Resolvers.standard
    match world.start client with
    | (world, .ok added) => (world, .ok (client.ref, added))
    | (world, .error cause) => (world.drop client.ref, .error cause)

/-- The property with the marks of an element, as an answer. -/
def propertyAnswer : Option MarkProperty → Answer
  | none => .nothing
  | some (.object names) => .texts (names.mergeSort fun a b => !(b < a))
  | some (.text value) => .text ("JsValue(" ++ Text.quoted value ++ ")")
  | some (.flag value) => .text ("JsValue(" ++ (if value then "true" else "false") ++ ")")
  | some .null => .text "JsValue"

/-- Lets an event happen to an event source, and says whether there was a handler. -/
def fireSource (world : World BrowserPage) (index : Nat) (state : Option Nat) (event : SourceEvent) :
    Result BrowserPage :=
  match world.page.sources[index]? with
  | none => (world, .error .noStream)
  | some source =>
    let readyState := state.getD source.readyState
    let page := { world.page with sources := world.page.sources.set index { source with readyState } }
    let world := { world with page }
    if source.handled then
      match event.toSignal? readyState with
      | some signal => (world.hear source.owner signal, .ok (.flag true))
      | none => (world, .ok (.flag true))
    else (world, .ok (.flag false))

/-- A session in a browser: the world, the clients that were started, and what was last reported. -/
structure BrowserSession where
  world : World BrowserPage
  started : List ClientRef
  /-- The client ids that have been seen in requests. -/
  seenIds : List String
  shown : Option Outline
  shownSources : List EventSource

namespace BrowserSession

/-- A session on a page with the given markup in its body. -/
def begin (markup : String) : BrowserSession :=
  let page := BrowserPage.withBody markup
  { world := { page }, started := [], seenIds := [], shown := Outline.ofPage page, shownSources := [] }

/-- Performs a step; the list of clients that were started may grow. -/
def perform (session : BrowserSession) : BrowserStep → Result BrowserPage × List ClientRef
  | .startClient settings =>
    match readSettings settings with
    | .error cause => ((session.world, .error (.settings cause)), session.started)
    | .ok settings =>
      match startClient session.world settings with
      | (world, .ok (ref, _)) => ((world, .ok (.number session.started.length)), session.started ++ [ref])
      | (world, .error cause) => ((world, .error (.page cause)), session.started)
  | .startPage settings =>
    match readSettings settings with
    | .error cause => ((session.world, .error (.settings cause)), session.started)
    | .ok settings =>
      match startClient session.world settings with
      | (world, .ok _) => ((world, .ok .nothing), session.started)
      | (world, .error cause) => ((world, .error (.setup cause.message)), session.started)
  | .dropClient client =>
    match session.started[client]? with
    | some ref => ((session.world.drop ref, .ok .nothing), session.started)
    | none => ((session.world, .error .noSuchClient), session.started)
  | .withClient client step =>
    match (session.started[client]?).bind session.world.client? with
    | some client => (step.perform session.world client, session.started)
    | none => ((session.world, .error .noSuchClient), session.started)
  | .onPage step => (step.perform session.world, session.started)
  | .call call => (call.perform session.world, session.started)
  | .attach =>
    match session.world.page.findDocument, Page.query session.world.page none "[id]" with
    | .ok (), .ok nodes => ((session.world, .ok (.nodes nodes)), session.started)
    | .error cause, _ | _, .error cause => ((session.world, .error (.page cause)), session.started)
  | .finish index ended =>
    match Exchange.pending? session.world.page.exchanges index with
    | none => ((session.world, .error .noSuchRequest), session.started)
    | some errand =>
      let page := { session.world.page with exchanges := Exchange.settle session.world.page.exchanges index }
      (({ session.world with page }.complete errand ended.outcome, .ok .nothing), session.started)
  | .source index state event => (fireSource session.world index state event, session.started)
  | .setProperty node value =>
    (withNode session.world node fun node =>
      ({ session.world with page := session.world.page.setMarkProperty node value }, .ok .nothing), session.started)
  | .property node =>
    (withNode session.world node fun node =>
      (session.world, .ok (propertyAnswer (session.world.page.markProperty? node))), session.started)
  | .setFault fault on =>
    (({ session.world with page := session.world.page.setFault fault on }, .ok .nothing), session.started)

/-- A header with the client id replaced by the order in which the ids were first seen. -/
def nameHeader (seen : List String) (header : String × String) : List String × (String × String) :=
  if Uuid.isVersion4 header.2 then
    let seen := if seen.contains header.2 then seen else seen ++ [header.2]
    (seen, (header.1, "uuid-" ++ toString (seen.idxOf header.2)))
  else (seen, header)

/-- The headers of requests with the client ids replaced. -/
def nameHeaders (seen : List String) (requests : List Request) : List String × List Request :=
  requests.foldl
    (fun (seen, done) request =>
      let (seen, headers) := request.headers.foldl
        (fun (seen, headers) header =>
          let (seen, header) := nameHeader seen header
          (seen, headers ++ [header]))
        (seen, [])
      (seen, done ++ [{ request with headers }]))
    (seen, [])

end BrowserSession

/-- What a session in a browser reports after a step. -/
structure BrowserReport where
  answer : Except Fault Answer
  log : List String
  sent : List Request
  channels : List (Option String)
  /-- The event sources, if they have changed. -/
  sources : Option (List EventSource)
  /-- The outline of the document, if it has changed. -/
  outline : Option (Option Outline)

namespace BrowserSession

/-- Performs a step and reports what it did. -/
def step (session : BrowserSession) (step : BrowserStep) : BrowserSession × BrowserReport :=
  let before := session.world.page.exchanges.length
  let ((world, answer), started) := session.perform step
  let page := world.page
  let (seenIds, sent) := nameHeaders session.seenIds ((page.exchanges.drop before).map Exchange.request)
  let outline := Outline.ofPage page
  let report : BrowserReport := {
    answer
    log := logLines BrowserPage.label world.notices
    sent
    channels := channelStates (started.map world.client?)
    sources := if page.sources == session.shownSources then none else some page.sources
    outline := if outline == session.shown then none else some outline }
  ({ world := { world with notices := [] }, started, seenIds, shown := outline, shownSources := page.sources },
    report)

end BrowserSession

end PageBindings.Script
