import PageBindings.Json.Basic

/-!
# Rebuilding a value from the top

`Json.rebuild` makes a value anew: a transformation sees each node before its members and says whether to go into what
it gives (`Visit.enter`) or to keep it as it is (`Visit.keep`).  The transformation may have effects of its own, such
as failing or keeping a record; they happen in the order of the visits, a container before its members, items from
left to right and members by name.

Since what the transformation gives is visited in turn, the process need not end by itself, and is bounded by a number
of levels: nodes further down than that stay as they are.
-/

namespace PageBindings.Json

/-- What becomes of a node after the transformation has seen it. -/
inductive Visit where
  | enter (value : Json)
  | keep (value : Json)

/-- Rebuilds a value from the top, `levels` deep. -/
def rebuild {m : Type → Type} [Monad m] (transform : Json → m Visit) : Nat → Json → m Json
  | 0, value => pure value
  | levels + 1, value => do
    match ← transform value with
    | .keep value => pure value
    | .enter (.array items) => do
      let items ← items.mapM (rebuild transform levels)
      pure (.array items)
    | .enter (.object members) => do
      let members ← members.mapM fun (name, value) => do
        let value ← rebuild transform levels value
        pure (name, value)
      pure (.object members)
    | .enter value => pure value

end PageBindings.Json
