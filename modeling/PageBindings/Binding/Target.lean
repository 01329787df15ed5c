import PageBindings.Failure
import PageBindings.View

/-!
# Targets

What an action patches is given by a selector: the one it names, or else the one of the view whose root its element
is.  Without either the action has nothing to patch.
-/

namespace PageBindings

/-- The selector of what an action patches, given the target it names and the view of its element. -/
def targetSelector (names : Vocabulary) (own : Option String) (view : Option View) : Except LookupError String :=
  match own, view with
  | some target, _ => .ok target
  | none, some view => .ok (view.selector names)
  | none, none => .error .missingTarget

theorem targetSelector_eq_error_iff (names : Vocabulary) (own : Option String) (view : Option View) :
    targetSelector names own view = .error .missingTarget ↔ own = none ∧ view = none := by
  cases own <;> cases view <;> simp [targetSelector]

end PageBindings
