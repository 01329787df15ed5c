import PageBindings.Page.Basic

/-!
# Scenes

A `Scene` is a page with the notices that have come up so far.  Most of what a client does takes a scene and gives
one.
-/

namespace PageBindings

/-- A page, and what has been reported while working on it, in order. -/
structure Scene (π : Type) where
  page : π
  notices : List Notice := []

namespace Scene

variable {π : Type}

/-- Reports something. -/
def note (scene : Scene π) (notice : Notice) : Scene π :=
  { scene with notices := scene.notices ++ [notice] }

/-- Reports several things. -/
def noteAll (scene : Scene π) (notices : List Notice) : Scene π :=
  { scene with notices := scene.notices ++ notices }

@[simp] theorem page_note (scene : Scene π) (notice : Notice) : (scene.note notice).page = scene.page :=
  rfl

@[simp] theorem page_noteAll (scene : Scene π) (notices : List Notice) :
    (scene.noteAll notices).page = scene.page :=
  rfl

variable [Page π]

/-- Marks an event type as bound on an element; false if it is already. -/
def claim (scene : Scene π) (node : NodeId) (eventType : String) : Scene π × Bool :=
  let (fresh, page, notices) := Page.claim scene.page node eventType
  ({ scene with page }.noteAll notices, fresh)

/-- Takes the mark off again. -/
def release (scene : Scene π) (node : NodeId) (eventType : String) : Scene π :=
  let (page, notices) := Page.release scene.page node eventType
  { scene with page }.noteAll notices

end Scene

end PageBindings
