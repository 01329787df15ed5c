import PageBindings.Document.Moves
import PageBindings.Page.Exchange
import PageBindings.Markup.Builder
import PageBindings.Selector.Basic

/-!
# Pages in memory

`MemoryPage` is a page that is nothing but data: a document, the marks and listeners on its elements, the requests
that were sent and the streams that were opened.  Responses and stream events come from outside.  Each capability can
be switched off; a request for it is then refused before anything is done.
-/

namespace PageBindings

namespace MemoryPage

/-- The capabilities that can be switched off. -/
inductive Capability where
  | create
  | replace
  | append
  | prepend
  | remove
  | listener
  | send
  | stream
  | currentTarget
deriving DecidableEq, Repr

namespace Capability

/-- The name of a capability. -/
def name : Capability → String
  | .create => "create"
  | .replace => "replace"
  | .append => "append"
  | .prepend => "prepend"
  | .remove => "remove"
  | .listener => "listener"
  | .send => "send"
  | .stream => "stream"
  | .currentTarget => "current_target"

/-- All capabilities that can be switched off. -/
def all : List Capability :=
  [.create, .replace, .append, .prepend, .remove, .listener, .send, .stream, .currentTarget]

/-- The capability of a name. -/
def ofName? (name : String) : Option Capability :=
  all.find? (·.name == name)

end Capability

/-- A push stream that was opened. -/
structure Stream where
  url : String
  owner : ClientRef
deriving DecidableEq, Repr

end MemoryPage

/-- A page in memory. -/
structure MemoryPage where
  document : Document
  /-- The event types that are bound, with their elements. -/
  marks : List (NodeId × String) := []
  /-- All listeners, in the order in which they were added. -/
  listeners : List Listener := []
  exchanges : List Exchange := []
  /-- All push streams that were opened, in order. -/
  streams : List MemoryPage.Stream := []
  /-- The streams that were closed, each as often as it was. -/
  closed : List StreamRef := []
  refused : List MemoryPage.Capability := []
  /-- The elements that have been handed out, by which their numbers are known outside. -/
  handedOut : List NodeId := []
  /-- How many clients have asked for an id. -/
  clientIds : Nat := 0

namespace MemoryPage

/-- A page with the given markup in its body. -/
def withBody (markup : String) : MemoryPage :=
  let document := Document.withBody markup
  { document, handedOut := document.descendants Document.root }

/-- The result, unless the capability is switched off. -/
def allow {α : Type} (page : MemoryPage) (capability : Capability) (result : Except PageError α) :
    Except PageError α :=
  if page.refused.contains capability then .error { operation := capability.name, detail := "refused" } else result

/-- Switches a capability off or on again. -/
def setRefused (page : MemoryPage) (capability : Capability) (off : Bool) : MemoryPage :=
  let others := page.refused.filter (· != capability)
  { page with refused := if off then capability :: others else others }

/-- How messages call an element. -/
def label (node : NodeId) : String :=
  "NodeId(" ++ toString node ++ ")"

/-- The elements below a root, or of the whole document, that match a selector. -/
def query (page : MemoryPage) (below : Option NodeId) (selector : String) : Except PageError (List NodeId) :=
  match Selector.parse? selector with
  | none => .error { operation := "querySelectorAll", detail := "invalid selector " ++ Text.quoted selector }
  | some conditions => .ok (page.document.query (below.getD Document.root) conditions)

/-- The value of a form control: the one that was set, or else its default. -/
def value? (page : MemoryPage) (node : NodeId) : Option String :=
  let d := page.document
  if d.isControl node then some ((d.value? node).getD (d.defaultValue node)) else none

/-- The first element of a fragment. -/
def create (page : MemoryPage) (html : String) : Except PageError (Option NodeId × MemoryPage) :=
  page.allow .create <|
    match page.document.read html with
    | (document, []) => .ok (none, { page with document })
    | (document, element :: _) =>
      .ok (some element,
        { page with document, handedOut := page.handedOut ++ element :: document.descendants element })

/-- Puts an element in the place of another, which must have a parent. -/
def replace (page : MemoryPage) (target replacement : NodeId) : Except PageError MemoryPage :=
  page.allow .replace <|
    match page.document.replaceNode? target replacement with
    | none => .error { operation := "replaceWith", detail := "target has no parent" }
    | some document => .ok { page with document }

/-- Makes an element the last child of another. -/
def append (page : MemoryPage) (parent child : NodeId) : Except PageError MemoryPage :=
  page.allow .append (.ok { page with document := page.document.attachLast parent child })

/-- Makes an element the first child of another. -/
def prepend (page : MemoryPage) (parent child : NodeId) : Except PageError MemoryPage :=
  page.allow .prepend (.ok { page with document := page.document.attachFirst parent child })

/-- Detaches an element. -/
def remove (page : MemoryPage) (node : NodeId) : Except PageError MemoryPage :=
  page.allow .remove (.ok { page with document := page.document.detach node })

/-- Resets a form with all that is in it, or a single form control. -/
def reset (page : MemoryPage) (node : NodeId) : Except PageError MemoryPage :=
  if page.document.tag node = "form" then .ok { page with document := page.document.resetForm node }
  else if page.document.isControl node then .ok { page with document := page.document.setValue node none }
  else .error { operation := "reset", detail := "<" ++ page.document.tag node ++ "> has no reset behaviour" }

/-- Marks an event type as bound on an element; false if it is already. -/
def claim (page : MemoryPage) (node : NodeId) (eventType : String) : Bool × MemoryPage :=
  if page.marks.contains (node, eventType) then (false, page)
  else (true, { page with marks := (node, eventType) :: page.marks })

/-- Takes the mark off again. -/
def release (page : MemoryPage) (node : NodeId) (eventType : String) : MemoryPage :=
  { page with marks := page.marks.filter (· != (node, eventType)) }

/-- Adds a listener. -/
def listen (page : MemoryPage) (listener : Listener) : Except PageError MemoryPage :=
  page.allow .listener (.ok { page with listeners := page.listeners ++ [listener] })

/-- The listeners of an element for an event type. -/
def listenersOf (page : MemoryPage) (node : NodeId) (eventType : String) : List Listener :=
  page.listeners.filter fun listener => listener.node == node && listener.eventType == eventType

/-- The element that a listener gets to see. -/
def currentTarget? (page : MemoryPage) (node : NodeId) : Option NodeId :=
  if page.refused.contains .currentTarget then none else some node

/-- Keeps a request for its response. -/
def send (page : MemoryPage) (request : Request) (errand : Errand) : Except PageError MemoryPage :=
  page.allow .send (.ok { page with exchanges := page.exchanges ++ [{ request, errand := some errand }] })

/-- Opens a push stream. -/
def subscribe (page : MemoryPage) (url : String) (owner : ClientRef) : Except PageError (StreamRef × MemoryPage) :=
  page.allow .stream (.ok (page.streams.length, { page with streams := page.streams ++ [{ url, owner }] }))

/-- Closes a push stream. -/
def unsubscribe (page : MemoryPage) (stream : StreamRef) : MemoryPage :=
  { page with closed := page.closed ++ [stream] }

/-- A new id for a client; ids are numbered. -/
def freshClientId (page : MemoryPage) : String × MemoryPage :=
  ("client-" ++ toString page.clientIds, { page with clientIds := page.clientIds + 1 })

end MemoryPage

instance : Page MemoryPage where
  label _ := MemoryPage.label
  query := MemoryPage.query
  contains page := page.document.contains
  isConnected page := page.document.isAttached
  attribute? page := page.document.attribute?
  value? := MemoryPage.value?
  create := MemoryPage.create
  replace := MemoryPage.replace
  append := MemoryPage.append
  prepend := MemoryPage.prepend
  remove := MemoryPage.remove
  reset := MemoryPage.reset
  claim page node eventType :=
    let (fresh, page) := page.claim node eventType
    (fresh, page, [])
  release page node eventType := (page.release node eventType, [])
  listen := MemoryPage.listen
  listeners := MemoryPage.listenersOf
  currentTarget? := MemoryPage.currentTarget?
  send := MemoryPage.send
  subscribe := MemoryPage.subscribe
  unsubscribe := MemoryPage.unsubscribe
  freshClientId := MemoryPage.freshClientId

end PageBindings
