import PageBindings.Json.Rebuild

/-!
# Rebuilding by rules

A list of rules makes a transformation for `Json.rebuild`: the first rule that a node equals says what becomes of it,
and a node without a rule is gone into as it is.  The nodes are recorded in the order of the visits.
-/

namespace PageBindings.Script

/-- What a rule does with its node. -/
inductive Verdict where
  | keep
  | enter
  | fail
deriving DecidableEq, Repr

/-- A rule for the nodes that equal `pattern`; without a replacement the node stays what it is. -/
structure RebuildRule where
  pattern : Json
  verdict : Verdict
  replacement : Option Json

/-- Work that records the nodes it visits, the last one first, and may be given up with a value. -/
abbrev Recorded := ExceptT Json (StateM (List Json))

/-- Visits a node by the first rule that it equals. -/
def visit (rules : List RebuildRule) (node : Json) : Recorded Json.Visit := do
  modify (node :: ·)
  match rules.find? fun rule => rule.pattern == node with
  | none => pure (.enter node)
  | some rule =>
    let value := rule.replacement.getD node
    match rule.verdict with
    | .keep => pure (.keep value)
    | .enter => pure (.enter value)
    | .fail => throw value

/--
How deep rebuilding by rules can go: where it ends at all, it goes through the replacement of each rule at most once
on its way down.
-/
def rebuildLevels (rules : List RebuildRule) (value : Json) : Nat :=
  rules.foldl (fun levels rule => levels + (rule.replacement.map (·.depth + 1)).getD 0) (value.depth + 1)

/--
Rebuilds a value by rules; gives the nodes in the order of the visits, and the new value or what ended the work.
-/
def rebuildByRules (rules : List RebuildRule) (value : Json) : List Json × Except Json Json :=
  let (outcome, visited) := (Json.rebuild (visit rules) (rebuildLevels rules value) value).run.run []
  (visited.reverse, outcome)

end PageBindings.Script
