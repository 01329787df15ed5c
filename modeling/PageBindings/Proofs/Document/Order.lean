import PageBindings.Proofs.Document.Tree

/-!
# Document order

A node comes before those below it, and one child with all below it before the next one (`Document.Before`).  In a
forest the nodes below a node are listed in this order (`Forest.pairwise_before`).  So of nodes in this order each one
that is above a given node has a topmost one of them at or above it (`Forest.exists_isTopmost_above`).
-/

namespace PageBindings.Document

variable {d : Document} {a b n t u : NodeId} {found : List NodeId}

/-- `a` comes before `b` in document order. -/
inductive Before (d : Document) (a b : NodeId) : Prop
  | above (h : d.ProperlyAbove a b)
  /-- The two are at or below children of one node, and that of `a` comes first. -/
  | beside {p x y : NodeId} (order : [x, y].Sublist (d.children p)) (ha : d.Above x a) (hb : d.Above y b)

/-- A node and those below it are listed in document order. -/
theorem Forest.pairwise_before (hf : d.Forest) (n : NodeId) : (n :: d.descendants n).Pairwise d.Before := by
  induction n using hf.induction with
  | node n ih =>
    refine List.pairwise_cons.2 ⟨fun m hm => .above (hf.mem_descendants_iff.1 hm), ?_⟩
    rw [hf.descendants_eq, List.pairwise_flatMap]
    refine ⟨ih, List.pairwise_iff_forall_sublist.2 fun {x y} order a ha b hb => ?_⟩
    exact .beside order (hf.mem_cons_descendants_iff.1 ha) (hf.mem_cons_descendants_iff.1 hb)

/-- A node is not below one that comes after it. -/
theorem Forest.not_above_of_before (hf : d.Forest) (h : d.Before a b) : ¬ d.Above b a := by
  intro hba
  cases h with
  | above hab =>
    have hself : d.ProperlyAbove a a := Relation.TransGen.trans_right hba hab
    exact hf.acyclic a hself
  | @beside p x y order hxa hyb =>
    have hx : x ∈ d.children p := order.subset List.mem_cons_self
    have hy : y ∈ d.children p := order.subset (List.mem_cons_of_mem x List.mem_cons_self)
    have hne : x ≠ y := by
      have hnodup := order.nodup (hf.nodup_children p)
      simpa using hnodup
    exact hne (hf.children_apart (hf.mem_children_iff.1 hx) (hf.mem_children_iff.1 hy) hxa (hyb.trans hba))

/-- Whether no other node of a list is above a node. -/
def isTopmost (d : Document) (found : List NodeId) (t : NodeId) : Bool :=
  found.all fun u => u == t || !d.contains u t

theorem Forest.isTopmost_iff (hf : d.Forest) : d.isTopmost found t = true ↔ ∀ u ∈ found, ¬ d.ProperlyAbove u t := by
  unfold isTopmost
  rw [List.all_eq_true]
  refine forall_congr' fun u => imp_congr_right fun _ => ?_
  rw [Bool.or_eq_true, beq_iff_eq, Bool.not_eq_true', Bool.eq_false_iff, ne_eq, hf.contains_iff,
    above_iff_eq_or_properlyAbove]
  constructor
  · rintro (rfl | h) hproper
    · exact hf.acyclic u hproper
    · exact h (.inr hproper)
  · intro h
    by_cases he : u = t
    · exact .inl he
    · exact .inr fun hor => hor.elim he h

/-- Of the nodes of a list that are at or above a node the first one is topmost. -/
theorem Forest.exists_isTopmost_above (hf : d.Forest) (h : found.Pairwise d.Before) (hu : u ∈ found)
    (hut : d.Above u t) : ∃ v ∈ found, d.isTopmost found v = true ∧ d.Above v t := by
  have hmem : ∀ w, w ∈ found.filter (fun w => d.contains w t) ↔ w ∈ found ∧ d.Above w t := by
    intro w
    rw [List.mem_filter, hf.contains_iff]
  have hordered := h.filter (fun w => d.contains w t)
  cases hfilter : found.filter (fun w => d.contains w t) with
  | nil =>
    have hin := (hmem u).2 ⟨hu, hut⟩
    rw [hfilter] at hin
    exact absurd hin List.not_mem_nil
  | cons v rest =>
    rw [hfilter] at hmem hordered
    obtain ⟨hv, hvt⟩ := (hmem v).1 List.mem_cons_self
    refine ⟨v, hv, hf.isTopmost_iff.2 fun w hw hwv => ?_, hvt⟩
    -- what is above the first one would come after it
    have hwv' : d.Above w v := above_iff_eq_or_properlyAbove.2 (.inr hwv)
    have hin := (hmem w).2 ⟨hw, hwv'.trans hvt⟩
    rcases List.mem_cons.1 hin with rfl | hrest
    · exact hf.acyclic w hwv
    · exact hf.not_above_of_before ((List.pairwise_cons.1 hordered).1 w hrest) hwv'

end PageBindings.Document
