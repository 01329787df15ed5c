import PageBindings.Binding.Action
import PageBindings.Proofs.Document.Reading

/-!
# Putting in what was read

A patch reads a fragment and puts its first root at a target.  Since the root is new and has no parent, this keeps a
forest (`grows_put?`), and what it attaches is all at or below the root (`attached_put?`).
-/

namespace PageBindings.Document

/-- The document with an element put in the place of a target or into it; kinds without new content do nothing. -/
def put? (kind : PatchKind) (d : Document) (target element : NodeId) : Option Document :=
  match kind with
  | .swap => d.replaceNode? target element
  | .append => some (d.attachLast target element)
  | .prepend => some (d.attachFirst target element)
  | .remove | .reset => some d

variable {d d' : Document} {kind : PatchKind} {markup : String} {target e n p : NodeId}

theorem keeps_put? (h : put? kind d target e = some d') : d.Keeps d' := by
  cases kind with
  | swap =>
    obtain ⟨⟨p, index⟩, -, rfl⟩ := Option.map_eq_some_iff.1 h
    exact ((keeps_detach d target).trans (keeps_detach _ e)).trans (keeps_attachAt _ p e index)
  | append =>
    obtain rfl := Option.some.inj h
    rw [attachLast_eq]
    exact keeps_attachAt d target e _
  | prepend =>
    obtain rfl := Option.some.inj h
    exact keeps_attachAt d target e 0
  | remove => exact Option.some.inj h ▸ Keeps.refl d
  | reset => exact Option.some.inj h ▸ Keeps.refl d

/-- Putting an element in is attaching it below the target, or below its parent after the target was taken out. -/
theorem put?_eq_attachAt (hk : kind.creates = true) (h : put? kind d target e = some d') :
    ∃ base p index, ((kind = .swap ∧ base = d.detach target ∧ d.parent? target = some p) ∨
      (kind ≠ .swap ∧ base = d ∧ p = target)) ∧ d' = base.attachAt p e index := by
  cases kind with
  | swap =>
    obtain ⟨⟨p, index⟩, hplace, rfl⟩ := Option.map_eq_some_iff.1 h
    obtain ⟨q, hq, hpq⟩ := Option.map_eq_some_iff.1 hplace
    obtain ⟨rfl, rfl⟩ := Prod.mk.inj hpq
    exact ⟨d.detach target, q, _, .inl ⟨rfl, rfl, hq⟩, attachAt_detach _ q e _⟩
  | append =>
    obtain rfl := Option.some.inj h
    exact ⟨d, target, _, .inr ⟨by simp, rfl, rfl⟩, attachLast_eq d target e⟩
  | prepend =>
    obtain rfl := Option.some.inj h
    exact ⟨d, target, 0, .inr ⟨by simp, rfl, rfl⟩, rfl⟩
  | remove => simp [PatchKind.creates] at hk
  | reset => simp [PatchKind.creates] at hk

/-- Putting in a root of what was read is an edit of the document as it was before. -/
theorem grows_put? (hk : kind.creates = true) (he : e ∈ (d.read markup).2)
    (h : put? kind (d.read markup).1 target e = some d') (ht : d.Forest → target < d.size) : d.Grows d' := by
  obtain ⟨hde, hes, hnone⟩ := root_read he
  obtain ⟨base, p, index, hplace, rfl⟩ := put?_eq_attachAt hk h
  have hgrow : (d.read markup).1.Grows base := by
    rcases hplace with ⟨-, rfl, -⟩ | ⟨-, rfl, -⟩
    · exact grows_detach _ _
    · exact Grows.refl _
  have hread := grows_read d markup
  have heb : e < base.size := Nat.lt_of_lt_of_le hes hgrow.size_le
  refine ⟨(hread.toKeeps.trans hgrow.toKeeps).trans (keeps_attachAt base p e index), ?_, ?_⟩
  · intro n hn
    rw [parent?_attachAt heb, if_neg (Nat.ne_of_lt (Nat.lt_of_lt_of_le hn hde))]
    exact (hread.trans hgrow).parent? hn
  · intro hf
    have hpd : p < d.size := by
      rcases hplace with ⟨-, -, hp⟩ | ⟨-, -, rfl⟩
      · rw [parent?_read (ht hf)] at hp
        exact hf.parent_lt_size hp
      · exact ht hf
    refine (hgrow.forest (hread.forest hf)).attachAt
      (Nat.lt_of_lt_of_le hpd (hread.trans hgrow).size_le) heb ?_ ?_ index
    · exact Nat.ne_of_gt (Nat.lt_of_lt_of_le hf.root_lt_size hde)
    · -- the element is new, and what is above the old node `p` is old
      intro ha
      have hold := (hread.trans hgrow).above hf hpd ha
      exact absurd (hf.above_lt_size hold hpd) (Nat.not_lt.2 hde)

/-- A new node hangs below new nodes, which are not attached in the old document. -/
private theorem attached_of_parent?_read (hf : d.Forest) (hp : d.Above root p)
    (h : (d.read markup).1.parent? n = some p) : d.Above root n := by
  by_cases hn : n < d.size
  · rw [parent?_read hn] at h
    exact Above.of_parent? h hp
  · have hdp := size_le_of_parent?_read (Nat.le_of_not_lt hn) h
    exact absurd (hp.lt_size hf.root_lt_size) (Nat.not_lt.2 hdp)

/-- What is attached after an element was put in was attached before, or is the element or below it. -/
theorem attached_put? (hk : kind.creates = true) (he : e ∈ (d.read markup).2)
    (h : put? kind (d.read markup).1 target e = some d') (hf : d.Forest) (hn : d'.Above root n) :
    d.Above root n ∨ d'.Above e n := by
  obtain ⟨hde, hes, hnone⟩ := root_read he
  obtain ⟨base, p, index, hplace, rfl⟩ := put?_eq_attachAt hk h
  have heb : e < base.size := by
    rcases hplace with ⟨-, rfl, -⟩ | ⟨-, rfl, -⟩
    · rw [size_detach]
      exact hes
    · exact hes
  have hold : ∀ {m q}, base.parent? m = some q → (d.read markup).1.parent? m = some q := by
    intro m q hq
    rcases hplace with ⟨-, rfl, -⟩ | ⟨-, rfl, -⟩
    · rw [parent?_detach] at hq
      split at hq
      · simp at hq
      · exact hq
    · exact hq
  -- on the way up to the document node, from which `e` is left behind once its edge is passed
  induction hn using Relation.ReflTransGen.head_induction_on with
  | refl => exact .inl (Above.refl d root)
  | @head n q hq _ ih =>
    rcases ih with ih | ih
    · rw [parent?_attachAt heb] at hq
      split at hq
      · rename_i hne
        exact .inr (hne ▸ Above.refl _ _)
      · exact .inl (attached_of_parent?_read hf ih (hold hq))
    · exact .inr (Above.of_parent? hq ih)

/-- Nothing that was read is attached until it is put in. -/
theorem attached_read (hf : d.Forest) (hn : (d.read markup).1.Above root n) : d.Above root n := by
  induction hn using Relation.ReflTransGen.head_induction_on with
  | refl => exact Above.refl d root
  | head hq _ ih => exact attached_of_parent?_read hf ih hq

/-! ### Documents from markup -/

theorem forest_empty : Document.empty.Forest where
  mem_children_iff := by
    intro p n
    cases p <;> cases n <;> simp [children, parent?, node?, empty]
  nodup_children p := by
    cases p <;> simp [children, node?, empty]
  acyclic n h := by
    obtain ⟨p, hp, -⟩ := properlyAbove_iff.1 h
    cases n <;> simp [parent?, node?, empty] at hp
  parent?_root := rfl
  size_pos := Nat.zero_lt_one

theorem forest_read_empty (markup : String) : (Document.empty.read markup).1.Forest :=
  (grows_read Document.empty markup).forest forest_empty

theorem forest_withBody (markup : String) : (Document.withBody markup).Forest := by
  unfold withBody
  have hread := forest_read_empty ("<body>" ++ markup ++ "</body>")
  cases h : Document.empty.read ("<body>" ++ markup ++ "</body>") with
  | mk d roots =>
    rw [h] at hread
    cases roots with
    | nil => exact hread
    | cons body rest =>
      have hbody : body ∈ (Document.empty.read ("<body>" ++ markup ++ "</body>")).2 := by
        rw [h]
        exact List.mem_cons_self
      obtain ⟨hle, hlt, -⟩ := root_read hbody
      rw [h] at hlt
      have hne : body ≠ root := Nat.ne_of_gt (Nat.lt_of_lt_of_le forest_empty.root_lt_size hle)
      dsimp only
      rw [attachLast_eq]
      refine hread.attachAt hread.root_lt_size hlt hne ?_ _
      intro ha
      exact hne (ha.eq_of_parent?_eq_none hread.parent?_root)

theorem keeps_withBody (markup : String) : Document.empty.Keeps (Document.withBody markup) := by
  unfold withBody
  have hread := (grows_read Document.empty ("<body>" ++ markup ++ "</body>")).toKeeps
  cases h : Document.empty.read ("<body>" ++ markup ++ "</body>") with
  | mk d roots =>
    rw [h] at hread
    cases roots with
    | nil => exact hread
    | cons body rest =>
      dsimp only
      rw [attachLast_eq]
      exact hread.trans (keeps_attachAt d root body _)

end PageBindings.Document
