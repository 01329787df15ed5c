import Mathlib.Data.Fintype.Card
import Mathlib.Logic.Relation
import PageBindings.Document.Traversal

/-!
# Ancestors in a document

`Document.Above` says that a node is another one or above it, and `Document.Forest` that the links of a document make
it a forest.  In a forest the bounded walks are exact: `contains` decides `Above` (`Forest.contains_iff`), and
`descendants` lists the nodes that are properly below (`Forest.mem_descendants_iff`).  Both rest on one count: a walk
that climbs `k` levels meets `k + 1` different nodes, so `k` is less than the number of nodes (`Forest.climbs_le`).
-/

namespace PageBindings.Document

/-- `a` is `n` or above it. -/
def Above (d : Document) (a n : NodeId) : Prop :=
  Relation.ReflTransGen (fun m p => d.parent? m = some p) n a

/-- `a` is above `n`, and is not `n` by that alone. -/
def ProperlyAbove (d : Document) (a n : NodeId) : Prop :=
  Relation.TransGen (fun m p => d.parent? m = some p) n a

/-- Parents and children agree, no node is its own ancestor, and the document node is on top. -/
structure Forest (d : Document) : Prop where
  mem_children_iff {p n : NodeId} : n ∈ d.children p ↔ d.parent? n = some p
  nodup_children (p : NodeId) : (d.children p).Nodup
  acyclic (n : NodeId) : ¬ d.ProperlyAbove n n
  parent?_root : d.parent? root = none
  size_pos : 0 < d.size

/-- `a` is exactly `k` levels above `n`. -/
def Climbs (d : Document) : Nat → NodeId → NodeId → Prop
  | 0, n, a => n = a
  | k + 1, n, a => ∃ p, d.parent? n = some p ∧ Climbs d k p a

variable {d : Document} {a b n p : NodeId}

/-! ### Nodes in use -/

theorem node?_eq_none_iff : d.node? n = none ↔ d.size ≤ n := by
  unfold node? size
  exact Array.getElem?_eq_none_iff

theorem lt_size_of_parent? (h : d.parent? n = some p) : n < d.size := by
  by_contra hn
  have hnone := node?_eq_none_iff.2 (Nat.le_of_not_lt hn)
  simp [parent?, hnone] at h

theorem lt_size_of_mem_children (h : n ∈ d.children p) : p < d.size := by
  by_contra hp
  have hnone := node?_eq_none_iff.2 (Nat.le_of_not_lt hp)
  simp [children, hnone] at h

theorem lt_size_of_attribute? {name value : String} (h : d.attribute? n name = some value) : n < d.size := by
  by_contra hn
  have hnone := node?_eq_none_iff.2 (Nat.le_of_not_lt hn)
  simp [attribute?, attributes, hnone] at h

theorem Forest.root_lt_size (hf : d.Forest) : root < d.size :=
  hf.size_pos

theorem Forest.parent_lt_size (hf : d.Forest) (h : d.parent? n = some p) : p < d.size :=
  lt_size_of_mem_children (hf.mem_children_iff.2 h)

/-! ### Above -/

theorem Above.refl (d : Document) (n : NodeId) : d.Above n n :=
  Relation.ReflTransGen.refl

theorem Above.trans {c : NodeId} (hab : d.Above a b) (hbc : d.Above b c) : d.Above a c :=
  Relation.ReflTransGen.trans hbc hab

theorem Above.of_parent? (h : d.parent? n = some p) (ha : d.Above a p) : d.Above a n :=
  Relation.ReflTransGen.head h ha

/-- What is above a node is the node, or above its parent. -/
theorem above_iff : d.Above a n ↔ a = n ∨ ∃ p, d.parent? n = some p ∧ d.Above a p := by
  constructor
  · intro h
    rcases Relation.ReflTransGen.cases_head h with h | ⟨p, hp, ha⟩
    · exact .inl h.symm
    · exact .inr ⟨p, hp, ha⟩
  · rintro (rfl | ⟨p, hp, ha⟩)
    · exact Above.refl d a
    · exact Above.of_parent? hp ha

theorem properlyAbove_iff : d.ProperlyAbove a n ↔ ∃ p, d.parent? n = some p ∧ d.Above a p :=
  Relation.TransGen.head'_iff

theorem above_iff_eq_or_properlyAbove : d.Above a n ↔ a = n ∨ d.ProperlyAbove a n := by
  rw [above_iff, properlyAbove_iff]

/-- Nothing is above a node without a parent but the node. -/
theorem Above.eq_of_parent?_eq_none (h : d.Above a n) (hn : d.parent? n = none) : a = n := by
  rcases above_iff.1 h with h | ⟨p, hp, -⟩
  · exact h
  · simp [hn] at hp

theorem Above.lt_size (h : d.Above a n) (ha : a < d.size) : n < d.size := by
  rcases above_iff.1 h with rfl | ⟨p, hp, -⟩
  · exact ha
  · exact lt_size_of_parent? hp

/-! ### Climbing -/

theorem climbs_succ_iff {k : Nat} : d.Climbs (k + 1) n a ↔ ∃ c, d.Climbs k n c ∧ d.parent? c = some a := by
  induction k generalizing n with
  | zero => simp [Climbs]
  | succ k ih =>
    constructor
    · rintro ⟨p, hp, h⟩
      obtain ⟨c, hc, hca⟩ := ih.1 h
      exact ⟨c, ⟨p, hp, hc⟩, hca⟩
    · rintro ⟨c, ⟨p, hp, hc⟩, hca⟩
      exact ⟨p, hp, ih.2 ⟨c, hc, hca⟩⟩

theorem above_iff_climbs : d.Above a n ↔ ∃ k, d.Climbs k n a := by
  constructor
  · intro h
    induction h using Relation.ReflTransGen.head_induction_on with
    | refl => exact ⟨0, rfl⟩
    | head hp _ ih =>
      obtain ⟨k, hk⟩ := ih
      exact ⟨k + 1, _, hp, hk⟩
  · rintro ⟨k, hk⟩
    induction k generalizing n with
    | zero => exact hk ▸ Above.refl d n
    | succ k ih =>
      obtain ⟨p, hp, hk⟩ := hk
      exact Above.of_parent? hp (ih hk)

theorem properlyAbove_iff_climbs : d.ProperlyAbove a n ↔ ∃ k, d.Climbs (k + 1) n a := by
  rw [properlyAbove_iff]
  constructor
  · rintro ⟨p, hp, ha⟩
    obtain ⟨k, hk⟩ := above_iff_climbs.1 ha
    exact ⟨k, p, hp, hk⟩
  · rintro ⟨k, p, hp, hk⟩
    exact ⟨p, hp, above_iff_climbs.2 ⟨k, hk⟩⟩

/-- A climb goes through one node on each level. -/
private theorem Climbs.split {i j : Nat} (h : d.Climbs (i + j) n a) : ∃ b, d.Climbs i n b ∧ d.Climbs j b a := by
  induction i generalizing n with
  | zero => exact ⟨n, rfl, by simpa using h⟩
  | succ i ih =>
    rw [Nat.add_right_comm] at h
    obtain ⟨p, hp, h⟩ := h
    obtain ⟨b, hb, hba⟩ := ih h
    exact ⟨b, ⟨p, hp, hb⟩, hba⟩

private theorem Climbs.unique {k : Nat} (ha : d.Climbs k n a) (hb : d.Climbs k n b) : a = b := by
  induction k generalizing n with
  | zero => exact ha.symm.trans hb
  | succ k ih =>
    obtain ⟨p, hp, ha⟩ := ha
    obtain ⟨q, hq, hb⟩ := hb
    obtain rfl := Option.some.inj (hp.symm.trans hq)
    exact ih ha hb

/-- A climb from a node to itself does not leave it. -/
private theorem Forest.climbs_self (hf : d.Forest) {k : Nat} (h : d.Climbs k n n) : k = 0 := by
  cases k with
  | zero => rfl
  | succ k => exact absurd (properlyAbove_iff_climbs.2 ⟨k, h⟩) (hf.acyclic n)

/-- No climb is higher than the nodes are many. -/
theorem Forest.climbs_le (hf : d.Forest) {k : Nat} (h : d.Climbs k n a) : k ≤ d.size := by
  rcases Nat.eq_zero_or_pos k with rfl | hk
  · exact Nat.zero_le _
  -- the node met on each level, which is a node in use
  have level : ∀ i : Fin (k + 1), ∃ b, d.Climbs i n b ∧ d.Climbs (k - i) b a := by
    intro i
    exact Climbs.split (by rw [Nat.add_sub_cancel' (Nat.le_of_lt_succ i.2)]; exact h)
  choose node below above using level
  have used : ∀ i, node i < d.size := by
    intro i
    by_cases hi : (i : Nat) = 0
    · have h0 := below i
      rw [hi] at h0
      obtain ⟨p, hp, -⟩ : d.Climbs (k - 1 + 1) n a := by rwa [Nat.sub_add_cancel hk]
      exact h0 ▸ lt_size_of_parent? hp
    · have h1 := below i
      rw [← Nat.sub_add_cancel (Nat.pos_of_ne_zero hi)] at h1
      obtain ⟨c, -, hc⟩ := climbs_succ_iff.1 h1
      exact hf.parent_lt_size hc
  have distinct : ∀ i j : Fin (k + 1), i ≤ j → node i = node j → i = j := by
    intro i j hij he
    have hj : d.Climbs (i + (j - i)) n (node j) := by
      rw [Nat.add_sub_cancel' hij]
      exact below j
    obtain ⟨b, hb, hbj⟩ := Climbs.split hj
    rw [Climbs.unique hb (below i), he] at hbj
    have := hf.climbs_self hbj
    exact Fin.ext (by omega)
  have inj : Function.Injective fun i => (⟨node i, used i⟩ : Fin d.size) := by
    intro i j he
    have he : node i = node j := congrArg Fin.val he
    rcases Nat.le_total i j with hij | hij
    · exact distinct i j hij he
    · exact (distinct j i hij he.symm).symm
  have := Fintype.card_le_of_injective _ inj
  simp only [Fintype.card_fin] at this
  omega

/-! ### The bounded walks -/

theorem containsWithin_iff {k : Nat} : d.containsWithin a k n = true ↔ ∃ j ≤ k, d.Climbs j n a := by
  induction k generalizing n with
  | zero => simp [containsWithin, Climbs]
  | succ k ih =>
    unfold containsWithin
    rw [Bool.or_eq_true, beq_iff_eq]
    constructor
    · rintro (h | h)
      · exact ⟨0, Nat.zero_le _, h⟩
      · cases hp : d.parent? n with
        | none => simp [hp] at h
        | some p =>
          simp only [hp] at h
          obtain ⟨j, hj, hc⟩ := ih.1 h
          exact ⟨j + 1, Nat.succ_le_succ hj, p, hp, hc⟩
    · rintro ⟨j, hj, hc⟩
      cases j with
      | zero => exact .inl hc
      | succ j =>
        obtain ⟨p, hp, hc⟩ := hc
        right
        simp only [hp]
        exact ih.2 ⟨j, Nat.le_of_succ_le_succ hj, hc⟩

theorem Forest.contains_iff (hf : d.Forest) : d.contains a n = true ↔ d.Above a n := by
  unfold contains
  rw [containsWithin_iff, above_iff_climbs]
  exact ⟨fun ⟨k, _, h⟩ => ⟨k, h⟩, fun ⟨k, h⟩ => ⟨k, hf.climbs_le h, h⟩⟩

theorem Forest.isAttached_iff (hf : d.Forest) : d.isAttached n = true ↔ d.Above root n :=
  hf.contains_iff

theorem Forest.mem_descendantsWithin_iff (hf : d.Forest) {k : Nat} :
    n ∈ d.descendantsWithin k a ↔ ∃ j < k, d.Climbs (j + 1) n a := by
  induction k generalizing a with
  | zero => simp [descendantsWithin]
  | succ k ih =>
    simp only [descendantsWithin, List.mem_flatMap, List.mem_cons, hf.mem_children_iff]
    constructor
    · rintro ⟨c, hc, rfl | h⟩
      · exact ⟨0, Nat.succ_pos k, a, hc, rfl⟩
      · obtain ⟨j, hj, hn⟩ := ih.1 h
        exact ⟨j + 1, Nat.succ_lt_succ hj, climbs_succ_iff.2 ⟨c, hn, hc⟩⟩
    · rintro ⟨j, hj, h⟩
      obtain ⟨c, hn, hc⟩ := climbs_succ_iff.1 h
      refine ⟨c, hc, ?_⟩
      cases j with
      | zero => exact .inl hn
      | succ j => exact .inr (ih.2 ⟨j, Nat.lt_of_succ_lt_succ hj, hn⟩)

theorem Forest.mem_descendants_iff (hf : d.Forest) : n ∈ d.descendants a ↔ d.ProperlyAbove a n := by
  unfold descendants
  rw [hf.mem_descendantsWithin_iff, properlyAbove_iff_climbs]
  exact ⟨fun ⟨k, _, h⟩ => ⟨k, h⟩, fun ⟨k, h⟩ => ⟨k, hf.climbs_le h, h⟩⟩

end PageBindings.Document
