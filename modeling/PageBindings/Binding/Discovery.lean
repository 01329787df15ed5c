import PageBindings.Scene

/-!
# Looking for declared bindings

`declaringElements` finds the elements that declare bindings among given roots and below them.  Roots that lie in
other roots are left out first (`outermost`), so that no element is found twice.
-/

namespace PageBindings

variable {π : Type} [Page π]

/-- Adds a root to disjoint ones: not if one of them contains it, and in place of those that it contains. -/
def addOutermost (page : π) (kept : List NodeId) (root : NodeId) : List NodeId :=
  if kept.any fun other => Page.contains page other root then kept
  else kept.filter (fun other => !Page.contains page root other) ++ [root]

/-- The roots without those that are in the subtree of another, or occurred before. -/
def outermost (page : π) (roots : List NodeId) : List NodeId :=
  roots.foldl (addOutermost page) []

/-- The root, if it has the attribute, and the elements below it that have it. -/
def declaringBelow (marker : String) (scene : Scene π) (root : NodeId) : Scene π × List NodeId :=
  let own := if Page.hasAttribute scene.page root marker then [root] else []
  match Page.query scene.page (some root) ("[" ++ marker ++ "]") with
  | .ok found => (scene, own ++ found)
  | .error cause => (scene.note (.failedScan root cause), own)

/-- The elements with the attribute among the roots and below them.  A root that cannot be searched is reported. -/
def declaringElements (marker : String) (scene : Scene π) (roots : List NodeId) : Scene π × List NodeId :=
  (outermost scene.page roots).foldl
    (fun (scene, found) root =>
      let (scene, more) := declaringBelow marker scene root
      (scene, found ++ more))
    (scene, [])

end PageBindings
