import PageBindings.Document.Basic
import PageBindings.Selector.Basic

/-!
# Going through a document

What is above and below a node: `Document.descendants` lists the nodes below one in document order,
`Document.contains` asks whether one is above another, and `Document.query` picks the descendants that match a
selector.  No path in a document is longer than its nodes are many, which bounds the recursion.
-/

namespace PageBindings.Document

/-- The nodes below `n`, at most `levels` down, each node before its children. -/
def descendantsWithin (d : Document) : Nat → NodeId → List NodeId
  | 0, _ => []
  | levels + 1, n => (d.children n).flatMap fun child => child :: descendantsWithin d levels child

/-- The nodes below `n`, in document order. -/
def descendants (d : Document) (n : NodeId) : List NodeId :=
  d.descendantsWithin d.size n

/-- Whether `ancestor` is `n` or at most `levels` above it. -/
def containsWithin (d : Document) (ancestor : NodeId) : Nat → NodeId → Bool
  | 0, n => n == ancestor
  | levels + 1, n =>
    n == ancestor ||
      match d.parent? n with
      | none => false
      | some parent => containsWithin d ancestor levels parent

/-- Whether `n` is `ancestor` or below it. -/
def contains (d : Document) (ancestor n : NodeId) : Bool :=
  d.containsWithin ancestor d.size n

/-- Whether a node is part of the document that one sees. -/
def isAttached (d : Document) (n : NodeId) : Bool :=
  d.contains root n

/-- The text of the nodes at most `levels` below `n`. -/
def textWithin (d : Document) : Nat → NodeId → String
  | 0, n => d.text n
  | levels + 1, n => (d.children n).foldl (fun text child => text ++ textWithin d levels child) (d.text n)

/-- The text in a node: its own, then that of its children. -/
def textContent (d : Document) (n : NodeId) : String :=
  d.textWithin d.size n

/-- Whether a node meets a condition. -/
def meets (d : Document) (n : NodeId) : Condition → Bool
  | .tag name => d.tag n == name
  | .id id => d.attribute? n "id" == some id
  | .inClass name =>
    match d.attribute? n "class" with
    | some classes => (Text.words classes).contains name
    | none => false
  | .has name => (d.attribute? n name).isSome
  | .equals name value => d.attribute? n name == some value

/-- Whether a node meets all conditions of a selector. -/
def isMatch (d : Document) (selector : Selector) (n : NodeId) : Bool :=
  selector.all (d.meets n)

/-- The nodes below `n` that match a selector, in document order. -/
def query (d : Document) (n : NodeId) (selector : Selector) : List NodeId :=
  (d.descendants n).filter (d.isMatch selector)

end PageBindings.Document
