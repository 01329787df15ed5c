import PageBindings.Node

/-!
# Documents

A document is a forest of elements.  All nodes that were ever made are kept, by number, each with its parent and
children; node 0 is the document itself, and what hangs below it is the document that one sees.  Everything else is
detached, and may be put in later.

`Document.attach` and `Document.detach` are the two ways to move a node.  The accessors `parent?`, `children`,
`tag`, … give the fields of a node, with empty values for numbers that are not in use.
-/

namespace PageBindings

/-- An element of a document. -/
structure Node where
  tag : String
  attributes : List (String × String) := []
  /-- The text directly in the element, without that of its children. -/
  text : String := ""
  /-- The value of a form control, once it has been set. -/
  value : Option String := none
  parent : Option NodeId := none
  children : List NodeId := []
deriving DecidableEq, Repr

/-- All nodes of a document, attached or not, by number. -/
structure Document where
  nodes : Array Node
deriving DecidableEq, Repr

namespace Document

/-- The number of the document node. -/
def root : NodeId := 0

/-- A document without elements. -/
def empty : Document := ⟨#[{ tag := "#document" }]⟩

/-- How many nodes were ever made. -/
def size (d : Document) : Nat := d.nodes.size

/-- The node of a number. -/
def node? (d : Document) (n : NodeId) : Option Node := d.nodes[n]?

/-- The tag of a node. -/
def tag (d : Document) (n : NodeId) : String := ((d.node? n).map Node.tag).getD ""

/-- The attributes of a node, in the order in which they are written. -/
def attributes (d : Document) (n : NodeId) : List (String × String) := ((d.node? n).map Node.attributes).getD []

/-- The text directly in a node. -/
def text (d : Document) (n : NodeId) : String := ((d.node? n).map Node.text).getD ""

/-- The value that was set on a form control. -/
def value? (d : Document) (n : NodeId) : Option String := (d.node? n).bind Node.value

/-- The parent of a node. -/
def parent? (d : Document) (n : NodeId) : Option NodeId := (d.node? n).bind Node.parent

/-- The children of a node, in order. -/
def children (d : Document) (n : NodeId) : List NodeId := ((d.node? n).map Node.children).getD []

/-- An attribute of a node; of several with one name the first counts. -/
def attribute? (d : Document) (n : NodeId) (name : String) : Option String :=
  ((d.attributes n).find? (·.1 == name)).map (·.2)

/-- Changes a node. -/
def modify (d : Document) (n : NodeId) (change : Node → Node) : Document :=
  ⟨d.nodes.modify n change⟩

@[simp] theorem size_modify (d : Document) (n : NodeId) (change : Node → Node) :
    (d.modify n change).size = d.size := by
  simp [modify, size]

theorem node?_modify (d : Document) (n m : NodeId) (change : Node → Node) :
    (d.modify n change).node? m = if n = m then (d.node? m).map change else d.node? m := by
  simp [modify, node?, Array.getElem?_modify]

/-- Sets or forgets the value of a form control. -/
def setValue (d : Document) (n : NodeId) (value : Option String) : Document :=
  d.modify n fun node => { node with value }

/-- Adds text at the end of the text directly in a node. -/
def addText (d : Document) (n : NodeId) (text : String) : Document :=
  d.modify n fun node => { node with text := node.text ++ text }

/-- Makes a node with a tag and attributes, which is not attached to anything. -/
def add (d : Document) (tag : String) (attributes : List (String × String)) : Document :=
  ⟨d.nodes.push { tag, attributes }⟩

@[simp] theorem size_add (d : Document) (tag : String) (attributes : List (String × String)) :
    (d.add tag attributes).size = d.size + 1 := by
  simp [add, size]

/-- A new node takes the next number, and the others keep theirs. -/
theorem node?_add (d : Document) (tag : String) (attributes : List (String × String)) (n : NodeId) :
    (d.add tag attributes).node? n = if n = d.size then some { tag, attributes } else d.node? n := by
  unfold add node? size
  exact Array.getElem?_push

/-- The parent of a node and its place among the children. -/
def place? (d : Document) (n : NodeId) : Option (NodeId × Nat) :=
  (d.parent? n).map fun parent => (parent, (d.children parent).idxOf n)

/-- Takes a node out of the children of its parent. -/
def detach (d : Document) (n : NodeId) : Document :=
  match d.parent? n with
  | none => d
  | some parent =>
    (d.modify n fun node => { node with parent := none }).modify parent fun node =>
      { node with children := node.children.erase n }

@[simp] theorem size_detach (d : Document) (n : NodeId) : (d.detach n).size = d.size := by
  unfold detach
  split <;> simp

/--
Makes a node a child of another, at the given place among the children.  A place after the end counts as the end;
`Linked.index_le_iff` says when an edit looks up such a place.
-/
def attachAt (d : Document) (parent child : NodeId) (index : Nat) : Document :=
  ((d.detach child).modify parent fun node =>
      { node with children := node.children.take index ++ child :: node.children.drop index }).modify child
    fun node => { node with parent := some parent }

@[simp] theorem size_attachAt (d : Document) (parent child : NodeId) (index : Nat) :
    (d.attachAt parent child index).size = d.size := by
  simp [attachAt]

/-- Makes a node the first child of another. -/
def attachFirst (d : Document) (parent child : NodeId) : Document :=
  d.attachAt parent child 0

/-- Makes a node the last child of another. -/
def attachLast (d : Document) (parent child : NodeId) : Document :=
  ((d.detach child).modify parent fun node => { node with children := node.children ++ [child] }).modify child
    fun node => { node with parent := some parent }

@[simp] theorem size_attachLast (d : Document) (parent child : NodeId) :
    (d.attachLast parent child).size = d.size := by
  simp [attachLast]

end Document

end PageBindings
