import PageBindings.Scene

/-!
# Patches

A patch changes the elements that match a selector (`patch`), each in turn: those that are no longer part of the
document by then are passed over, and an element that refuses is reported and does not hold up the others.  A patch
that puts in new content makes it afresh for each element.
-/

namespace PageBindings

/-- The elements that a patch put into the document. -/
structure PatchOutcome where
  kind : PatchKind
  inserted : List NodeId
deriving DecidableEq, Repr

/-- The elements to scan for bindings after the patch. -/
def PatchOutcome.toBind (outcome : PatchOutcome) : List NodeId :=
  if outcome.kind.bindsAfterwards then outcome.inserted else []

variable {π : Type} [Page π]

/-- Puts an element in the place of the target, or into it.  Kinds without new content do nothing. -/
def insertElement (kind : PatchKind) (page : π) (target element : NodeId) : Except PageError π :=
  match kind with
  | .swap => Page.replace page target element
  | .append => Page.append page target element
  | .prepend => Page.prepend page target element
  | .remove | .reset => .ok page

/-- Removes or resets the target.  Kinds with new content do nothing. -/
def alterElement (kind : PatchKind) (page : π) (target : NodeId) : Except PageError π :=
  match kind with
  | .remove => Page.remove page target
  | .reset => Page.reset page target
  | .swap | .append | .prepend => .ok page

/-- The scene after a change of the page, or with a report that the change was refused. -/
def Scene.after (scene : Scene π) (kind : PatchKind) : Except PageError π → Scene π
  | .ok page => { scene with page }
  | .error cause => scene.note (.failedMutation kind cause)

/-- Puts new content in the place of a target or into it, and gives the new element if it went in. -/
def patchWithContent (kind : PatchKind) (fragment : Option String) (scene : Scene π) (target : NodeId) :
    Scene π × Except PatchError (List NodeId) :=
  match fragment with
  | none => (scene, .error (.content (.missing kind)))
  | some html =>
    match Page.create scene.page html with
    | .error cause => (scene, .error (.page cause))
    | .ok (none, page) => ({ scene with page }, .error (.content .noElement))
    | .ok (some element, page) =>
      let inserted := insertElement kind page target element
      ({ scene with page }.after kind inserted, .ok (if inserted.isOk then [element] else []))

/-- Patches one target, and gives the element that this put into the document, if any. -/
def patchElement (kind : PatchKind) (fragment : Option String) (scene : Scene π) (target : NodeId) :
    Scene π × Except PatchError (List NodeId) :=
  if !Page.isConnected scene.page target then (scene, .ok [])
  else if kind.creates then patchWithContent kind fragment scene target
  else (scene.after kind (alterElement kind scene.page target), .ok [])

/-- Patches targets one after the other, up to the first that has no content to be patched with. -/
def patchTargets (kind : PatchKind) (fragment : Option String) :
    Scene π → List NodeId → Scene π × Except PatchError (List NodeId)
  | scene, [] => (scene, .ok [])
  | scene, target :: rest =>
    match patchElement kind fragment scene target with
    | (scene, .error cause) => (scene, .error cause)
    | (scene, .ok inserted) =>
      match patchTargets kind fragment scene rest with
      | (scene, .error cause) => (scene, .error cause)
      | (scene, .ok more) => (scene, .ok (inserted ++ more))

/-- Patches given targets. -/
def patchElements (kind : PatchKind) (fragment : Option String) (scene : Scene π) (targets : List NodeId) :
    Scene π × Except PatchError PatchOutcome :=
  let (scene, inserted) := patchTargets kind fragment scene targets
  (scene, inserted.map fun inserted => { kind, inserted })

/-- Patches every element that matches a selector; there must be one. -/
def patch (kind : PatchKind) (selector : String) (fragment : Option String) (scene : Scene π) :
    Scene π × Except PatchError PatchOutcome :=
  match Page.query scene.page none selector with
  | .error cause => (scene, .error (.page cause))
  | .ok [] => (scene, .error (.lookup (.noMatch selector)))
  | .ok targets => patchElements kind fragment scene targets

end PageBindings
