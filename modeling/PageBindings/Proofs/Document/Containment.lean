import Mathlib.Order.Defs.Unbundled
import PageBindings.Proofs.Document.Ancestry

/-!
# Containment

To find out whether one node contains another a page goes up from the second one until it meets the first one or there
is no parent left.  Nothing bounds this search but the links themselves (`Document.Search`).  In a forest it ends,
with the answer of the bounded walk `Document.contains` and no other (`Forest.search_iff`), and containment is a
partial order (`Forest.isPartialOrder_contains`).
-/

namespace PageBindings.Document

variable {d : Document} {a m n p : NodeId}

/-- The search for `a` from a node upwards ends with this answer. -/
inductive Search (d : Document) (a : NodeId) : NodeId → Bool → Prop
  | found : Search d a a true
  | top {n : NodeId} (hne : n ≠ a) (hp : d.parent? n = none) : Search d a n false
  | up {n p : NodeId} {answer : Bool} (hne : n ≠ a) (hp : d.parent? n = some p) (h : Search d a p answer) :
      Search d a n answer

/-- What holds of a node if it holds of its parent holds of every node. -/
@[elab_as_elim]
theorem Forest.induction_parent {motive : NodeId → Prop} (hf : d.Forest)
    (node : ∀ n, (∀ p, d.parent? n = some p → motive p) → motive n) (n : NodeId) : motive n := by
  -- by the number of levels that there are above a node
  suffices hlevels : ∀ k n, (∀ j a, d.Climbs j n a → j ≤ k) → motive n from
    hlevels d.size n fun _ _ hclimb => hf.climbs_le hclimb
  intro k
  induction k with
  | zero =>
    intro n hbound
    refine node n fun p hp => ?_
    exact absurd (hbound 1 p ⟨p, hp, rfl⟩) (Nat.not_succ_le_zero 0)
  | succ k ih =>
    intro n hbound
    refine node n fun p hp => ih p fun j a hclimb => ?_
    exact Nat.le_of_succ_le_succ (hbound (j + 1) a ⟨p, hp, hclimb⟩)

theorem Forest.contains_of_parent? (hf : d.Forest) (hne : n ≠ a) (hp : d.parent? n = some p) :
    d.contains a n = d.contains a p := by
  rw [Bool.eq_iff_iff, hf.contains_iff, hf.contains_iff, above_iff]
  constructor
  · rintro (rfl | ⟨q, hq, ha⟩)
    · exact absurd rfl hne
    · obtain rfl := Option.some.inj (hp.symm.trans hq)
      exact ha
  · exact fun ha => .inr ⟨p, hp, ha⟩

/-- The search always ends. -/
theorem Forest.search_contains (hf : d.Forest) (a n : NodeId) : d.Search a n (d.contains a n) := by
  induction n using hf.induction_parent with
  | node n ih =>
    by_cases hne : n = a
    · subst hne
      rw [hf.contains_iff.2 (Above.refl d n)]
      exact .found
    · cases hp : d.parent? n with
      | none =>
        have hnot : d.contains a n = false := by
          rw [Bool.eq_false_iff, ne_eq, hf.contains_iff]
          exact fun ha => hne (ha.eq_of_parent?_eq_none hp).symm
        rw [hnot]
        exact .top hne hp
      | some p =>
        rw [hf.contains_of_parent? hne hp]
        exact .up hne hp (ih p hp)

/-- A search has one answer. -/
theorem Search.unique {answer answer' : Bool} (h : d.Search a n answer) (h' : d.Search a n answer') :
    answer = answer' := by
  induction h with
  | found =>
    cases h' with
    | found => rfl
    | top hne => exact absurd rfl hne
    | up hne => exact absurd rfl hne
  | top hne hp =>
    cases h' with
    | found => exact absurd rfl hne
    | top => rfl
    | up _ hq => simp [hp] at hq
  | up hne hp _ ih =>
    cases h' with
    | found => exact absurd rfl hne
    | top _ hq => simp [hp] at hq
    | up _ hq h' =>
      obtain rfl := Option.some.inj (hp.symm.trans hq)
      exact ih h'

theorem Forest.search_iff (hf : d.Forest) {answer : Bool} : d.Search a n answer ↔ d.contains a n = answer := by
  constructor
  · exact fun h => (hf.search_contains a n).unique h
  · rintro rfl
    exact hf.search_contains a n

theorem Forest.above_antisymm (hf : d.Forest) (hmn : d.Above m n) (hnm : d.Above n m) : m = n := by
  rcases above_iff_eq_or_properlyAbove.1 hmn with h | h
  · exact h
  · exact absurd (Relation.TransGen.trans_left h hnm) (hf.acyclic n)

theorem Forest.isPartialOrder_contains (hf : d.Forest) :
    IsPartialOrder NodeId fun a n => d.contains a n = true where
  refl n := hf.contains_iff.2 (Above.refl d n)
  trans _ _ _ hm hn := hf.contains_iff.2 ((hf.contains_iff.1 hm).trans (hf.contains_iff.1 hn))
  antisymm _ _ hmn hnm := hf.above_antisymm (hf.contains_iff.1 hmn) (hf.contains_iff.1 hnm)

end PageBindings.Document
