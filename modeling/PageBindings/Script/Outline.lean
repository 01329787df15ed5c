import PageBindings.Page.Browser
import PageBindings.Page.Memory

/-!
# Outlines

An outline is what one sees of a document: its elements with their own text, the values of form controls, and how many
listeners there are for each event type.
-/

namespace PageBindings

/-- A page that can be looked at from outside, and typed into. -/
class VisiblePage (π : Type) extends Page π where
  document : π → Document
  /-- All listeners of the page. -/
  allListeners : π → List Listener
  /-- The elements that have been handed out, by which their numbers are known outside. -/
  handedOut : π → List NodeId
  /-- Sets the value of a form control, as a user would. -/
  enter : π → NodeId → String → π

instance : VisiblePage MemoryPage where
  document := MemoryPage.document
  allListeners := MemoryPage.listeners
  handedOut := MemoryPage.handedOut
  enter page node value := { page with document := page.document.setValue node (some value) }

instance : VisiblePage BrowserPage where
  document := BrowserPage.document
  allListeners := BrowserPage.listeners
  handedOut := BrowserPage.handedOut
  enter page node value := { page with document := page.document.setValue node (some value) }

/-- What one sees of an element. -/
inductive Outline where
  | element (number : NodeId) (tag text : String) (value : Option String) (listeners : List (String × Nat))
      (children : List Outline)
deriving BEq

namespace Outline

variable {π : Type} [VisiblePage π]

/-- One more of something that is counted. -/
def countOne (counts : List (String × Nat)) (name : String) : List (String × Nat) :=
  match counts with
  | [] => [(name, 1)]
  | (other, n) :: rest => if other = name then (other, n + 1) :: rest else (other, n) :: countOne rest name

/-- How many listeners an element has for each event type. -/
def listenerCounts (page : π) (node : NodeId) : List (String × Nat) :=
  ((VisiblePage.allListeners page).filter (·.node == node)).foldl
    (fun counts listener => countOne counts listener.eventType) []

/-- What one sees of an element, at most `levels` down. -/
def ofElementWithin (page : π) : Nat → NodeId → Outline
  | 0, node => .element node "" "" none [] []
  | levels + 1, node =>
    let d := VisiblePage.document page
    .element node (d.tag node) (d.text node) (Page.value? page node) (listenerCounts page node)
      ((d.children node).map (ofElementWithin page levels))

/-- What one sees of an element. -/
def ofElement (page : π) (node : NodeId) : Outline :=
  ofElementWithin page (VisiblePage.document page).size node

/-- What one sees of a document: its top element, if it has one. -/
def ofPage (page : π) : Option Outline :=
  ((VisiblePage.document page).children Document.root).head?.map (ofElement page)

end Outline

end PageBindings
