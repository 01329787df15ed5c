import PageBindings.Notice
import PageBindings.Push.Channel
import PageBindings.Request
import PageBindings.View

/-!
# Pages

`Page` is all that a client asks of the page it works on: the document, listeners, the network and push streams.
A page is a value, and what changes it gives the page as it is afterwards.  A request that the page refuses leaves it
as it was.

Listeners and pending requests are data: they record which client they belong to and what it will do, so that they
survive the client, as they do in a page.
-/

namespace PageBindings

/-- A client, by number. -/
abbrev ClientRef := Nat

/-- What runs when an event of a type reaches an element. -/
structure Listener where
  node : NodeId
  eventType : String
  client : ClientRef
  /-- The view of the element when it was bound. -/
  view : Option View
  actions : List Action

/-- What a request is for: the patch that its response completes. -/
structure Errand where
  client : ClientRef
  kind : PatchKind
  target : String
deriving DecidableEq, Repr

/-- The capabilities of a page. -/
class Page (π : Type) where
  /-- How messages call an element. -/
  label : π → NodeId → String
  /-- The elements below a root, or of the whole document, that match a selector, in document order. -/
  query : π → Option NodeId → String → Except PageError (List NodeId)
  /-- Whether the second element is the first one or inside it. -/
  contains : π → NodeId → NodeId → Bool
  /-- Whether an element is part of the document. -/
  isConnected : π → NodeId → Bool
  attribute? : π → NodeId → String → Option String
  /-- The current value of a form control. -/
  value? : π → NodeId → Option String
  /-- The first element of a fragment, not part of the document yet; there may be none. -/
  create : π → String → Except PageError (Option NodeId × π)
  /-- Puts the second element in the place of the first. -/
  replace : π → NodeId → NodeId → Except PageError π
  /-- Makes the second element the last child of the first. -/
  append : π → NodeId → NodeId → Except PageError π
  /-- Makes the second element the first child of the first. -/
  prepend : π → NodeId → NodeId → Except PageError π
  remove : π → NodeId → Except PageError π
  reset : π → NodeId → Except PageError π
  /-- Marks an event type as bound on an element; false if it is already. -/
  claim : π → NodeId → String → Bool × π × List Notice
  /-- Takes the mark off again. -/
  release : π → NodeId → String → π × List Notice
  listen : π → Listener → Except PageError π
  /-- The listeners of an element for an event type, in the order in which they were added. -/
  listeners : π → NodeId → String → List Listener
  /-- The element that a listener for an event on this element gets to see. -/
  currentTarget? : π → NodeId → Option NodeId
  send : π → Request → Errand → Except PageError π
  subscribe : π → String → ClientRef → Except PageError (StreamRef × π)
  unsubscribe : π → StreamRef → π
  /-- A new id for a client. -/
  freshClientId : π → String × π

/-- Whether an element has an attribute. -/
def Page.hasAttribute {π : Type} [Page π] (page : π) (node : NodeId) (name : String) : Bool :=
  (Page.attribute? page node name).isSome

/-- The view of an element, if it carries a view id. -/
def Page.view? {π : Type} [Page π] (page : π) (names : Vocabulary) (node : NodeId) : Option View :=
  (Page.attribute? page node names.viewId).map fun id =>
    { id, name := Page.attribute? page node names.viewName, type := Page.attribute? page node names.viewType }

end PageBindings
