import PageBindings.Document.Traversal

/-!
# Putting elements in place

`Document.replaceNode` puts a node in the place of another, and `Document.resetForm` forgets the values that were set
in a form.
-/

namespace PageBindings.Document

/-- Puts `replacement` in the place of `target`, which is detached; nothing if `target` has no parent. -/
def replaceNode? (d : Document) (target replacement : NodeId) : Option Document :=
  (d.place? target).map fun (parent, index) =>
    ((d.detach target).detach replacement).attachAt parent replacement index

/-- Forgets the values that were set on nodes. -/
def forgetValues (d : Document) (nodes : List NodeId) : Document :=
  nodes.foldl (fun d n => d.setValue n none) d

/-- Forgets the values that were set on a node and below it. -/
def resetForm (d : Document) (form : NodeId) : Document :=
  d.forgetValues (form :: d.descendants form)

/-- Whether a node is a form control. -/
def isControl (d : Document) (n : NodeId) : Bool :=
  ["input", "textarea", "select"].contains (d.tag n)

/-- The value that a form control has when none is set: its attribute. -/
def defaultValue (d : Document) (n : NodeId) : String :=
  (d.attribute? n "value").getD ""

end PageBindings.Document
