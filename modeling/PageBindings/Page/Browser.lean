import PageBindings.Document.Moves
import PageBindings.Page.Exchange
import PageBindings.Markup.Builder
import PageBindings.Uuid

/-!
# Pages in a browser

`BrowserPage` is a page as a script in a browser meets it.  The marks of bound event types are properties of a plain
object which is itself a property of the element, and a plain object inherits names that were never set on it.  A
function of the browser may throw; what it throws becomes the error that the page reports.
-/

namespace PageBindings

/-- What a browser can be made to do: functions that throw, and things that are missing or other than expected. -/
inductive BrowserFault where
  | createElement
  | replaceWith
  | append
  | prepend
  | addEventListener
  | request
  | eventSource
  | openRequest
  | setRequestHeader
  | sendRequest
  | getProperty
  | setProperty
  | hasProperty
  | deleteProperty
  /-- There is no window. -/
  | noWindow
  /-- There is no document. -/
  | noDocument
  /-- Making a template gives another element. -/
  | noTemplate
  /-- Events have no current target. -/
  | noTarget
  /-- The current target of events is the window. -/
  | windowTarget
deriving DecidableEq, Repr

namespace BrowserFault

/-- The name of a fault. -/
def name : BrowserFault → String
  | .createElement => "createElement"
  | .replaceWith => "replaceWith"
  | .append => "append"
  | .prepend => "prepend"
  | .addEventListener => "addEventListener"
  | .request => "XMLHttpRequest"
  | .eventSource => "EventSource"
  | .openRequest => "open"
  | .setRequestHeader => "setRequestHeader"
  | .sendRequest => "send"
  | .getProperty => "Reflect.get"
  | .setProperty => "Reflect.set"
  | .hasProperty => "Reflect.has"
  | .deleteProperty => "Reflect.deleteProperty"
  | .noWindow => "window"
  | .noDocument => "document"
  | .noTemplate => "template"
  | .noTarget => "currentTarget"
  | .windowTarget => "windowTarget"

/-- All faults. -/
def all : List BrowserFault :=
  [.createElement, .replaceWith, .append, .prepend, .addEventListener, .request, .eventSource, .openRequest,
    .setRequestHeader, .sendRequest, .getProperty, .setProperty, .hasProperty, .deleteProperty, .noWindow,
    .noDocument, .noTemplate, .noTarget, .windowTarget]

/-- The fault of a name. -/
def ofName? (name : String) : Option BrowserFault :=
  all.find? (·.name == name)

end BrowserFault

/-- The value of the property that holds the marks of an element. -/
inductive MarkProperty where
  | text (value : String)
  | flag (value : Bool)
  | null
  /-- A plain object, with the names that were set on it. -/
  | object (names : List String)
deriving DecidableEq, Repr

/-- The names that every plain object inherits. -/
def inheritedNames : List String :=
  ["constructor", "toString", "toLocaleString", "valueOf", "hasOwnProperty", "isPrototypeOf", "propertyIsEnumerable",
    "__proto__", "__defineGetter__", "__defineSetter__", "__lookupGetter__", "__lookupSetter__"]

/-- An event source, as it is seen from outside. -/
structure EventSource where
  url : String
  owner : ClientRef
  /-- Zero at first; closing makes it two. -/
  readyState : Nat
  /-- Whether the three handlers are set. -/
  handled : Bool
deriving DecidableEq, Repr

/-- A page in a browser. -/
structure BrowserPage where
  document : Document
  listeners : List Listener := []
  /-- The properties with the marks, the latest first. -/
  markProperties : List (NodeId × MarkProperty) := []
  exchanges : List Exchange := []
  sources : List EventSource := []
  faults : List BrowserFault := []
  /-- The elements that have been handed out, by which their numbers are known outside. -/
  handedOut : List NodeId := []
  /-- What the next client id is made from. -/
  randomBits : Nat := Uuid.first

namespace BrowserPage

/-- A page with the given markup in its body. -/
def withBody (markup : String) : BrowserPage :=
  let document := Document.withBody markup
  { document, handedOut := document.descendants Document.root }

/-- Makes a fault happen, or not any more. -/
def setFault (page : BrowserPage) (fault : BrowserFault) (on : Bool) : BrowserPage :=
  let others := page.faults.filter (· != fault)
  { page with faults := if on then fault :: others else others }

/-- Whether a fault happens. -/
def has (page : BrowserPage) (fault : BrowserFault) : Bool :=
  page.faults.contains fault

/-- The error of an operation that threw. -/
def thrown {α : Type} (operation what : String) : Except PageError α :=
  .error { operation, detail := "JsValue(" ++ what ++ ")" }

/-- The result, unless the function is made to throw. -/
def calling {α : Type} (page : BrowserPage) (fault : BrowserFault) (operation : String)
    (result : Except PageError α) : Except PageError α :=
  if page.has fault then thrown operation "Error: refused" else result

/-- How messages call an element. -/
def label (node : NodeId) : String :=
  "Element(" ++ toString node ++ ")"

/-- The elements below a root, or of the whole document, that match a selector. -/
def query (page : BrowserPage) (below : Option NodeId) (selector : String) : Except PageError (List NodeId) :=
  match Selector.parse? selector with
  | none => thrown "querySelectorAll" "SyntaxError: invalid selector"
  | some conditions => .ok (page.document.query (below.getD Document.root) conditions)

/-- The value of a form control: the one that was set, or else its default, which for a text area is its text. -/
def value? (page : BrowserPage) (node : NodeId) : Option String :=
  let d := page.document
  if d.tag node = "textarea" then some ((d.value? node).getD (d.textContent node))
  else if d.isControl node then some ((d.value? node).getD (d.defaultValue node))
  else none

/-- The first element of a fragment, which a template reads. -/
def create (page : BrowserPage) (html : String) : Except PageError (Option NodeId × BrowserPage) :=
  page.calling .createElement "createElement" <|
    if page.has .noTemplate then
      .error { operation := "createElement", detail := "expected <template> but got " ++ label 1 }
    else
      match page.document.read html with
      | (document, []) => .ok (none, { page with document })
      | (document, element :: _) =>
        .ok (some element,
          { page with document, handedOut := page.handedOut ++ element :: document.descendants element })

/-- Puts an element in the place of another, unless it contains that one; without a parent nothing happens. -/
def replace (page : BrowserPage) (target replacement : NodeId) : Except PageError BrowserPage :=
  page.calling .replaceWith "replaceWith" <|
    if target ≠ replacement ∧ page.document.contains replacement target then
      thrown "replaceWith" "HierarchyRequestError"
    else .ok { page with document := (page.document.replaceNode? target replacement).getD page.document }

/-- The error of putting an element into itself or what it contains, if it is that. -/
def insertable {α : Type} (page : BrowserPage) (operation : String) (parent child : NodeId)
    (result : Except PageError α) : Except PageError α :=
  if page.document.contains child parent then thrown operation "HierarchyRequestError" else result

/-- Makes an element the last child of another. -/
def append (page : BrowserPage) (parent child : NodeId) : Except PageError BrowserPage :=
  page.calling .append "append" <|
    page.insertable "append" parent child (.ok { page with document := page.document.attachLast parent child })

/-- Makes an element the first child of another. -/
def prepend (page : BrowserPage) (parent child : NodeId) : Except PageError BrowserPage :=
  page.calling .prepend "prepend" <|
    page.insertable "prepend" parent child (.ok { page with document := page.document.attachFirst parent child })

/-- Detaches an element. -/
def remove (page : BrowserPage) (node : NodeId) : BrowserPage :=
  { page with document := page.document.detach node }

/-- Resets a form with all that is in it; an input or text area gets its default for its value. -/
def reset (page : BrowserPage) (node : NodeId) : Except PageError BrowserPage :=
  let d := page.document
  if d.tag node = "form" then .ok { page with document := d.resetForm node }
  else if d.tag node = "input" then .ok { page with document := d.setValue node (some (d.defaultValue node)) }
  else if d.tag node = "textarea" then .ok { page with document := d.setValue node (some (d.textContent node)) }
  else .error { operation := "reset", detail := "<" ++ (d.tag node).map Char.toUpper ++ "> has no reset behaviour" }

/-- The property with the marks of an element. -/
def markProperty? (page : BrowserPage) (node : NodeId) : Option MarkProperty :=
  (page.markProperties.find? (·.1 == node)).map (·.2)

/-- Sets the property with the marks of an element. -/
def setMarkProperty (page : BrowserPage) (node : NodeId) (property : MarkProperty) : BrowserPage :=
  { page with markProperties := (node, property) :: page.markProperties.filter (·.1 != node) }

/-- The names set on the object with the marks of an element, if the property can be read and is an object. -/
def markNames? (page : BrowserPage) (node : NodeId) : Option (List String) :=
  if page.has .getProperty then none
  else
    match page.markProperty? node with
    | some (.object names) => some names
    | _ => none

/--
Marks an event type as bound on an element; false if it is already.  Without an object for the marks a new one is
made; a mark or object that cannot be set is reported and counts as set.
-/
def claim (page : BrowserPage) (node : NodeId) (eventType : String) : Bool × BrowserPage × List Notice :=
  let stored := page.markNames? node
  let names := stored.getD []
  let settable := !page.has .setProperty
  let page := if stored.isNone && settable then page.setMarkProperty node (.object []) else page
  let notices := if stored.isNone && !settable then [Notice.unmarkedNode node] else []
  if !page.has .hasProperty && (names.contains eventType || inheritedNames.contains eventType) then
    (false, page, notices)
  else if settable then (true, page.setMarkProperty node (.object (names.insert eventType)), notices)
  else (true, page, notices ++ [.unmarkedEvent eventType node])

/-- Takes the mark off again, if there is an object with marks. -/
def release (page : BrowserPage) (node : NodeId) (eventType : String) : BrowserPage × List Notice :=
  match page.markNames? node with
  | none => (page, [])
  | some names =>
    if page.has .deleteProperty then (page, [.stuckMark eventType node])
    else (page.setMarkProperty node (.object (names.filter (· != eventType))), [])

/-- Adds a listener. -/
def listen (page : BrowserPage) (listener : Listener) : Except PageError BrowserPage :=
  page.calling .addEventListener "addEventListener" (.ok { page with listeners := page.listeners ++ [listener] })

/-- The listeners of an element for an event type. -/
def listenersOf (page : BrowserPage) (node : NodeId) (eventType : String) : List Listener :=
  page.listeners.filter fun listener => listener.node == node && listener.eventType == eventType

/-- The element that a listener gets to see: the current target, if there is one and it is an element. -/
def currentTarget? (page : BrowserPage) (node : NodeId) : Option NodeId :=
  if page.has .noTarget || page.has .windowTarget then none else some node

/-- Makes a request, opens it, sets its headers and sends it. -/
def send (page : BrowserPage) (request : Request) (errand : Errand) : Except PageError BrowserPage :=
  page.calling .request "new XMLHttpRequest" <|
    page.calling .openRequest "XMLHttpRequest.open" <|
      (if request.headers.isEmpty then id else page.calling .setRequestHeader "XMLHttpRequest.setRequestHeader") <|
        page.calling .sendRequest "XMLHttpRequest.send"
          (.ok { page with exchanges := page.exchanges ++ [{ request, errand := some errand }] })

/-- Makes an event source and sets its handlers. -/
def subscribe (page : BrowserPage) (url : String) (owner : ClientRef) : Except PageError (StreamRef × BrowserPage) :=
  page.calling .eventSource "new EventSource"
    (.ok (page.sources.length,
      { page with sources := page.sources ++ [{ url, owner, readyState := 0, handled := true }] }))

/-- Takes the handlers off an event source and closes it. -/
def unsubscribe (page : BrowserPage) (stream : StreamRef) : BrowserPage :=
  { page with sources := page.sources.modify stream fun source => { source with readyState := 2, handled := false } }

/-- A new id for a client. -/
def freshClientId (page : BrowserPage) : String × BrowserPage :=
  (Uuid.format page.randomBits, { page with randomBits := Uuid.next page.randomBits })

/-- Whether a script can find the document; `window.document` fails otherwise. -/
def findDocument (page : BrowserPage) : Except PageError Unit :=
  if page.has .noWindow || page.has .noDocument then
    .error { operation := "window.document", detail := "no document available" }
  else .ok ()

end BrowserPage

instance : Page BrowserPage where
  label _ := BrowserPage.label
  query := BrowserPage.query
  contains page := page.document.contains
  isConnected page := page.document.isAttached
  attribute? page := page.document.attribute?
  value? := BrowserPage.value?
  create := BrowserPage.create
  replace := BrowserPage.replace
  append := BrowserPage.append
  prepend := BrowserPage.prepend
  remove page node := .ok (page.remove node)
  reset := BrowserPage.reset
  claim := BrowserPage.claim
  release := BrowserPage.release
  listen := BrowserPage.listen
  listeners := BrowserPage.listenersOf
  currentTarget? := BrowserPage.currentTarget?
  send := BrowserPage.send
  subscribe := BrowserPage.subscribe
  unsubscribe := BrowserPage.unsubscribe
  freshClientId := BrowserPage.freshClientId

end PageBindings
