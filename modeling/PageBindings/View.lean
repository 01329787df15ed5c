import PageBindings.Settings.Basic
import PageBindings.Selector.Attribute

/-!
# Views

A view is a part of the page with an id given by the server.  Ids are opaque: they are compared, and written into
selectors, and never made or changed here.
-/

namespace PageBindings

/-- The view that an element is the root of. -/
structure View where
  id : String
  name : Option String
  type : Option String
deriving DecidableEq, Repr

/-- The selector of exactly this view. -/
def View.selector (names : Vocabulary) (view : View) : String :=
  Selector.forAttribute names.viewId view.id

end PageBindings
