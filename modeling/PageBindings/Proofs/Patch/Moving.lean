import PageBindings.Proofs.Patch.Insertion

/-!
# Putting in an element that is there already

`insertElement` may be given an element that has a place in the document.  It is taken out of it first, so that the
edit is that of a new element, in the document without it (`Document.spliced_detach_put?`): it comes to stand where it
should, and all other elements stay where they are (`Document.Moved`).  A page does not look at what is above what.
An element that is put in below itself goes round with what is between, and only then the document is no forest any
more (`Document.acyclic_put?_iff`).

For a swap the place is looked up before the element is taken out.  So an element that comes before the target among
the same children is put in one place too far, if there is such a place at all (`Document.Linked.index_le_iff`), and
is left out here.
-/

namespace PageBindings

namespace Document

variable {kind : PatchKind} {d d' : Document} {e target : NodeId}

/-- What an edit that moves an element does to the document. -/
structure Moved (kind : PatchKind) (target e : NodeId) (d d' : Document) : Prop where
  /-- What is written in the nodes stays. -/
  bare? (n : NodeId) : d'.bare? n = d.bare? n
  linked : d'.Linked
  parent? {n : NodeId} (hn : n ≠ e) (hswap : kind = .swap → n ≠ target) : d'.parent? n = d.parent? n
  /-- The others keep their order. -/
  others (q : NodeId) : (d'.children q).erase e =
    if kind = .swap then ((d.children q).erase e).erase target else (d.children q).erase e
  /-- A swap puts the element between the neighbours of the target. -/
  swap (h : kind = .swap) : d'.parent? target = none ∧ ∃ p before after, d.parent? target = some p ∧
    (d.children p).erase e = before ++ target :: after ∧ d'.children p = before ++ e :: after
  append (h : kind = .append) : d'.children target = (d.children target).erase e ++ [e]
  prepend (h : kind = .prepend) : d'.children target = e :: (d.children target).erase e

/-! ### Parents -/

theorem linked_put? (hf : d.Forest) (ht : target < d.size) (he : e < d.size) (hk : kind.creates = true)
    (h : put? kind d target e = some d') : d'.Linked := by
  obtain ⟨base, p, index, hplace, rfl⟩ := put?_eq_attachAt hk h
  rcases hplace with ⟨-, rfl, hp⟩ | ⟨-, rfl, rfl⟩
  · refine (hf.linked.detach target).attachAt ?_ ?_ index
    · rw [size_detach]
      exact hf.parent_lt_size hp
    · rwa [size_detach]
  · exact hf.linked.attachAt ht he index

theorem exists_parent?_put? (he : e < d.size) (hk : kind.creates = true) (h : put? kind d target e = some d') :
    ∃ p, ((kind = .swap ∧ d.parent? target = some p) ∨ (kind ≠ .swap ∧ p = target)) ∧
      ∀ n, d'.parent? n = if n = e then some p else if kind = .swap ∧ n = target then none else d.parent? n := by
  obtain ⟨base, p, index, hplace, rfl⟩ := put?_eq_attachAt hk h
  rcases hplace with ⟨hswap, rfl, hp⟩ | ⟨hswap, rfl, rfl⟩
  · refine ⟨p, .inl ⟨hswap, hp⟩, fun n => ?_⟩
    rw [parent?_attachAt (by rwa [size_detach]), parent?_detach]
    simp only [hswap, true_and]
  · refine ⟨p, .inr ⟨hswap, rfl⟩, fun n => ?_⟩
    rw [parent?_attachAt he]
    simp only [hswap, false_and, if_false]

/-- No way up goes round, unless the element is put in below itself. -/
theorem acyclic_put?_iff (hf : d.Forest) (he : e < d.size) (hne : target ≠ e) (hk : kind.creates = true)
    (h : put? kind d target e = some d') : (∀ n, ¬ d'.ProperlyAbove n n) ↔ ¬ d.Above e target := by
  constructor
  · intro hacyclic ha
    obtain ⟨p, hp, hparent⟩ := exists_parent?_put? he hk h
    have hep : d.Above e p := by
      rcases hp with ⟨-, hp⟩ | ⟨-, rfl⟩
      · exact (above_iff_of_parent? hp hne.symm).1 ha
      · exact ha
    -- from the new parent of the element the way up to it stays, since a target that is taken out is not on it
    have hway : ∀ m, d.Above e m → d.Above m p → d'.Above e m := by
      intro m hem
      induction hem using Relation.ReflTransGen.head_induction_on with
      | refl => exact fun _ => Above.refl d' e
      | @head m q hq _ ih =>
        intro hmp
        by_cases hme : m = e
        · exact hme ▸ Above.refl d' m
        · have hstays : ¬ (kind = .swap ∧ m = target) := by
            rintro ⟨hswap, rfl⟩
            rcases hp with ⟨-, hp⟩ | ⟨hother, -⟩
            · exact hf.acyclic m (properlyAbove_iff.2 ⟨p, hp, hmp⟩)
            · exact hother hswap
          have hq' : d'.parent? m = some q := by rw [hparent, if_neg hme, if_neg hstays, hq]
          exact Above.of_parent? hq' (ih ((Above.of_parent? hq (Above.refl d q)).trans hmp))
    have hnew : d'.parent? e = some p := by rw [hparent, if_pos rfl]
    exact hacyclic e (properlyAbove_iff.2 ⟨p, hnew, hway p hep (Above.refl d p)⟩)
  · intro ha
    obtain ⟨base, p, index, hplace, rfl⟩ := put?_eq_attachAt hk h
    rcases hplace with ⟨-, rfl, hp⟩ | ⟨-, rfl, rfl⟩
    · refine (hf.detach target).acyclic_attachAt (by rwa [size_detach]) (fun hep => ha ?_) index
      exact Above.of_parent? hp ((grows_detach d target).above hf (hf.parent_lt_size hp) hep)
    · exact hf.acyclic_attachAt he ha index

theorem forest_put?_iff (hf : d.Forest) (ht : target < d.size) (he : e < d.size) (hne : target ≠ e)
    (hk : kind.creates = true) (h : put? kind d target e = some d') :
    d'.Forest ↔ e ≠ root ∧ ¬ d.Above e target := by
  have hacyclic := acyclic_put?_iff hf he hne hk h
  have hlinked := linked_put? hf ht he hk h
  obtain ⟨p, -, hparent⟩ := exists_parent?_put? he hk h
  constructor
  · intro hf'
    refine ⟨?_, hacyclic.1 hf'.acyclic⟩
    rintro rfl
    have hroot := hparent root
    rw [hf'.parent?_root, if_pos rfl] at hroot
    simp at hroot
  · rintro ⟨hroot, ha⟩
    exact {
      mem_children_iff := hlinked.mem_children_iff
      nodup_children := hlinked.nodup_children
      acyclic := hacyclic.2 ha
      parent?_root := by rw [hparent, if_neg hroot.symm, hf.parent?_root, ite_self]
      size_pos := Nat.lt_of_lt_of_le hf.size_pos (keeps_put? h).size_le }

/-! ### Children -/

theorem moved_put? (hf : d.Forest) (ht : target < d.size) (he : e < d.size) (hne : target ≠ e)
    (hk : kind.creates = true) (hlater : kind = .swap → ∀ p, ¬ [e, target].Sublist (d.children p))
    (h : put? kind d target e = some d') : Moved kind target e d d' := by
  -- the edit is that of a new element, in the document without it
  have hspliced := spliced_detach_put? hf ht hk (fun hswap => ⟨hne, hlater hswap⟩) h
  have hwithout : (d.detach e).parent? e = none := by rw [parent?_detach, if_pos rfl]
  have hrest : ∀ q, (d.detach e).children q = (d.children q).erase e := hf.linked.children_detach e
  obtain ⟨p, hp, hparent⟩ := exists_parent?_put? he hk h
  refine ⟨bare?_put? h, linked_put? hf ht he hk h, ?_, ?_, ?_, ?_, ?_⟩
  · intro n hn hswap
    rw [hparent, if_neg hn, if_neg fun hcleared => hswap hcleared.1 hcleared.2]
  · intro q
    rw [← hrest]
    exact hspliced.erase_children (hf.detach e) hwithout hk q
  · rintro rfl
    rcases hp with ⟨-, hp⟩ | ⟨hswap, -⟩
    · have hplace : (d.detach e).parent? target = some p := by rw [parent?_detach, if_neg hne, hp]
      obtain ⟨before, after, hsplit, hput⟩ := hspliced.swap_children (hf.detach e) hplace
      refine ⟨?_, p, before, after, hp, (hrest p).symm.trans hsplit, hput⟩
      rw [hparent, if_neg hne, if_pos ⟨rfl, rfl⟩]
    · exact absurd rfl hswap
  · rintro rfl
    rw [← hrest]
    exact hspliced.children_target hk (by simp)
  · rintro rfl
    rw [← hrest]
    exact hspliced.children_target hk (by simp)

end Document

/-! ### Pages -/

variable {page : MemoryPage} {kind : PatchKind} {e target : NodeId}

/-- Whether an element can be put in for a target: the kind is not switched off, and a swap needs a place. -/
def MemoryPage.receives (page : MemoryPage) (kind : PatchKind) (target : NodeId) : Bool :=
  admits page.refused kind && (kind != .swap || (page.document.parent? target).isSome)

theorem insertElement_cases (page : MemoryPage) (hk : kind.creates = true) (target e : NodeId) :
    (page.receives kind target = false ∧ ∃ cause, insertElement kind page target e = .error cause) ∨
      (page.receives kind target = true ∧ ∃ document, Document.put? kind page.document target e = some document ∧
        insertElement kind page target e = .ok { page with document }) := by
  cases hput : Document.put? kind page.document target e with
  | none =>
    cases kind with
    | swap =>
      have hplace : page.document.place? target = none := Option.map_eq_none_iff.1 hput
      have hparent : page.document.parent? target = none := Option.map_eq_none_iff.1 hplace
      have hput : page.document.replaceNode? target e = none := hput
      refine .inl ⟨by simp [MemoryPage.receives, hparent], ?_⟩
      simp only [insertElement, Page.replace, MemoryPage.replace, MemoryPage.allow, hput]
      split <;> exact ⟨_, rfl⟩
    | append => simp [Document.put?] at hput
    | prepend => simp [Document.put?] at hput
    | remove => simp [Document.put?] at hput
    | reset => simp [Document.put?] at hput
  | some document =>
    have hplace : (kind != .swap || (page.document.parent? target).isSome) = true := by
      by_cases hswap : kind = .swap
      · subst hswap
        obtain ⟨_, hplace, -⟩ := Option.map_eq_some_iff.1 hput
        obtain ⟨p, hp, -⟩ := Option.map_eq_some_iff.1 hplace
        simp [hp]
      · simp [hswap]
    obtain ⟨hok, herror⟩ := MemoryPage.insertElement_of_put? page hk hput
    unfold MemoryPage.receives
    rw [hplace, Bool.and_true]
    cases hadmits : MemoryPage.admits page.refused kind with
    | true => exact .inr ⟨rfl, document, rfl, hok hadmits⟩
    | false => exact .inl ⟨rfl, herror hadmits⟩

/--
An element is put in for a target that it is not among the children before, wherever else it is in the document.
There is an error if the kind is switched off or a target to swap has no parent, and the page is as it was.  Otherwise
the element has left its old place and stands where it should, and all others stay where they are.  The document is a
forest again unless the element is above the target, which is not refused, or is the document node.
-/
theorem insertElement_moves (hf : page.document.Forest) (hk : kind.creates = true) (ht : target < page.document.size)
    (he : e < page.document.size) (hne : target ≠ e)
    (hlater : kind = .swap → ∀ p, ¬ [e, target].Sublist (page.document.children p)) :
    (page.receives kind target = false → ∃ cause, insertElement kind page target e = .error cause) ∧
    (page.receives kind target = true → ∃ document, insertElement kind page target e = .ok { page with document } ∧
      Document.Moved kind target e page.document document ∧
      ((∀ n, ¬ document.ProperlyAbove n n) ↔ ¬ page.document.Above e target) ∧
      (document.Forest ↔ e ≠ Document.root ∧ ¬ page.document.Above e target)) := by
  rcases insertElement_cases page hk target e with ⟨hreceives, herror⟩ | ⟨hreceives, document, hput, hok⟩
  · rw [hreceives]
    exact ⟨fun _ => herror, fun h => by simp at h⟩
  · rw [hreceives]
    refine ⟨fun h => by simp at h, fun _ => ⟨document, hok, ?_, ?_, ?_⟩⟩
    · exact Document.moved_put? hf ht he hne hk hlater hput
    · exact Document.acyclic_put?_iff hf he hne hk hput
    · exact Document.forest_put?_iff hf ht he hne hk hput

/-- A paragraph with three children. -/
def threeInOne : MemoryPage :=
  MemoryPage.withBody "<p><a></a><b></b><i></i></p>"

/-- The last of the three takes the place of the first. -/
theorem insertElement_moves_lastFirst :
    threeInOne.document.Forest ∧ threeInOne.receives .swap 3 = true ∧
      ∃ document, insertElement .swap threeInOne 3 5 = .ok { threeInOne with document } ∧
        document.Forest ∧ document.parent? 3 = none ∧ document.children 2 = [5, 4] := by
  have hf : threeInOne.document.Forest := MemoryPage.forest_withBody _
  have hsize : threeInOne.document.size = 6 := by decide +kernel
  have hparent : threeInOne.document.parent? 3 = some 2 := by decide +kernel
  have hchildren : threeInOne.document.children 2 = [3, 4, 5] := by decide +kernel
  have hreceives : threeInOne.receives .swap 3 = true := by decide +kernel
  have hlater : ∀ p, ¬ [5, 3].Sublist (threeInOne.document.children p) := by
    intro p hsub
    have hp := hf.mem_children_iff.1 (hsub.subset (List.mem_cons_of_mem 5 List.mem_cons_self))
    obtain rfl := Option.some.inj (hparent.symm.trans hp)
    rw [hchildren] at hsub
    exact absurd hsub (by decide)
  have habove : ¬ threeInOne.document.Above 5 3 := by
    rw [← hf.contains_iff]
    decide +kernel
  obtain ⟨document, hok, hmoved, -, hforest⟩ := (insertElement_moves hf rfl (hsize ▸ by decide) (hsize ▸ by decide)
    (by decide) (fun _ => hlater)).2 hreceives
  obtain ⟨hnone, p, before, after, hp, hsplit, hplace⟩ := hmoved.swap rfl
  refine ⟨hf, hreceives, document, hok, hforest.2 ⟨by decide, habove⟩, hnone, ?_⟩
  obtain rfl := Option.some.inj (hparent.symm.trans hp)
  rw [hchildren] at hsplit
  have hsplit : [3, 4] = before ++ 3 :: after := hsplit
  cases before with
  | nil =>
    obtain rfl : [4] = after := (List.cons.inj hsplit).2
    exact hplace
  | cons first rest =>
    have hrest : [4] = rest ++ 3 :: after := (List.cons.inj hsplit).2
    have hmem : 3 ∈ [4] := hrest ▸ List.mem_append_right rest List.mem_cons_self
    exact absurd hmem (by decide)

/--
The paragraph is put in below its first child, and is above itself then.  And the first child does not take the place
of the second one: it comes after the third.
-/
theorem insertElement_misplaces :
    (∃ document, insertElement .append threeInOne 3 2 = .ok { threeInOne with document } ∧
        document.ProperlyAbove 2 2) ∧
      ∃ document, insertElement .swap threeInOne 4 3 = .ok { threeInOne with document } ∧
        threeInOne.document.children 2 = [3, 4, 5] ∧ document.children 2 = [5, 3] := by
  refine ⟨⟨threeInOne.document.attachLast 3 2, rfl, ?_⟩, _, rfl, by decide +kernel, by decide +kernel⟩
  have hchild : (threeInOne.document.attachLast 3 2).parent? 3 = some 2 := by decide +kernel
  have hparagraph : (threeInOne.document.attachLast 3 2).parent? 2 = some 3 := by decide +kernel
  exact Document.properlyAbove_iff.2 ⟨3, hparagraph, Document.Above.of_parent? hchild (Document.Above.refl _ 2)⟩

end PageBindings
