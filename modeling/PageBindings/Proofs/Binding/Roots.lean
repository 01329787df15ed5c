import PageBindings.Proofs.Binding.Discovery
import PageBindings.Proofs.Page.Views

/-!
# The roots of a search

Of the roots of a search those are kept that no other root is above, in the order in which they first occur
(`KeptOf`).  One more root that is covered changes nothing (`KeptOf.covered`), and one that is not takes the place of
those below it (`KeptOf.uncovered`); so in the end the topmost roots are kept and cover what all roots cover
(`outermost_keeps_topmost`).  What is found is then found once, and below each topmost root in one go and in document
order (`declaringElements_lists_once`).
-/

namespace PageBindings

variable {page : MemoryPage} {roots kept : List NodeId} {k n r root : NodeId}

/-! ### Topmost roots -/

/-- The roots with no other root above them, in the order of their first occurrences. -/
structure KeptOf (page : MemoryPage) (roots kept : List NodeId) : Prop where
  mem_iff {n : NodeId} : n ∈ kept ↔ n ∈ roots ∧ ∀ r ∈ roots, ¬ page.document.ProperlyAbove r n
  order : kept.Pairwise fun m n => roots.idxOf m < roots.idxOf n

namespace KeptOf

theorem nodup (h : KeptOf page roots kept) : kept.Nodup :=
  h.order.imp fun hlt => ne_of_apply_ne roots.idxOf (Nat.ne_of_lt hlt)

/-- Of two kept roots none is above the other. -/
theorem eq_of_above (h : KeptOf page roots kept) (hk : k ∈ kept) (hn : n ∈ kept) (ha : page.document.Above k n) :
    k = n :=
  (Document.above_iff_eq_or_properlyAbove.1 ha).resolve_right ((h.mem_iff.1 hn).2 k (h.mem_iff.1 hk).1)

/-- The order of the roots so far stays what it is. -/
private theorem order_concat (h : KeptOf page roots kept) (root : NodeId) :
    kept.Pairwise fun m n => (roots ++ [root]).idxOf m < (roots ++ [root]).idxOf n := by
  refine h.order.imp_of_mem fun {m n} hm hn hlt => ?_
  rwa [List.idxOf_append_of_mem (h.mem_iff.1 hm).1, List.idxOf_append_of_mem (h.mem_iff.1 hn).1]

theorem covered (h : KeptOf page roots kept) (hk : k ∈ kept) (ha : page.document.Above k root) :
    KeptOf page (roots ++ [root]) kept where
  mem_iff {n} := by
    have hkroots := (h.mem_iff.1 hk).1
    rw [List.forall_mem_append, List.forall_mem_singleton, List.mem_append, List.mem_singleton]
    constructor
    · intro hn
      obtain ⟨hmem, htop⟩ := h.mem_iff.1 hn
      -- what is above the new root is above all that the new root is above
      exact ⟨.inl hmem, htop, fun hroot => htop k hkroots (Relation.TransGen.trans_left hroot ha)⟩
    · rintro ⟨hmem | rfl, htop, -⟩
      · exact h.mem_iff.2 ⟨hmem, htop⟩
      · rcases Document.above_iff_eq_or_properlyAbove.1 ha with rfl | hproper
        · exact hk
        · exact absurd hproper (htop k hkroots)
  order := h.order_concat root

theorem uncovered (h : KeptOf page roots kept) (hf : page.document.Forest)
    (hcover : ∀ r ∈ roots, ∃ k ∈ kept, page.document.Above k r)
    (hroot : ∀ k ∈ kept, ¬ page.document.Above k root) :
    KeptOf page (roots ++ [root]) (kept.filter (fun k => !page.document.contains root k) ++ [root]) where
  mem_iff {n} := by
    have hfree : ∀ r ∈ roots, ¬ page.document.ProperlyAbove r root := by
      intro r hr hproper
      obtain ⟨k, hk, hkr⟩ := hcover r hr
      exact hroot k hk (hkr.trans (Document.above_iff_eq_or_properlyAbove.2 (.inr hproper)))
    rw [List.forall_mem_append, List.forall_mem_singleton, List.mem_append, List.mem_append, List.mem_singleton,
      List.mem_filter, Bool.not_eq_true', Bool.eq_false_iff, ne_eq, hf.contains_iff]
    constructor
    · rintro (⟨hn, hnot⟩ | rfl)
      · obtain ⟨hmem, htop⟩ := h.mem_iff.1 hn
        exact ⟨.inl hmem, htop, fun hproper => hnot (Document.above_iff_eq_or_properlyAbove.2 (.inr hproper))⟩
      · exact ⟨.inr rfl, hfree, hf.acyclic n⟩
    · rintro ⟨hmem | rfl, htop, hnot⟩
      · have hn := h.mem_iff.2 ⟨hmem, htop⟩
        refine .inl ⟨hn, fun habove => ?_⟩
        rcases Document.above_iff_eq_or_properlyAbove.1 habove with rfl | hproper
        · exact hroot root hn habove
        · exact hnot hproper
      · exact .inr rfl
  order := by
    have hnew : root ∉ roots := fun hmem => by
      obtain ⟨k, hk, hkr⟩ := hcover root hmem
      exact hroot k hk hkr
    refine List.pairwise_append.2 ⟨(h.order_concat root).filter _, List.pairwise_singleton _ _, ?_⟩
    intro k hk n hn
    have hkroots := (h.mem_iff.1 (List.mem_filter.1 hk).1).1
    rw [List.mem_singleton.1 hn, List.idxOf_append_of_mem hkroots, List.idxOf_append_of_notMem hnew]
    exact Nat.lt_add_right _ (List.idxOf_lt_length_of_mem hkroots)

end KeptOf

theorem keptOf_outermost (hf : page.document.Forest) (roots : List NodeId) :
    KeptOf page roots (outermost page roots) := by
  induction roots using List.reverseRecOn with
  | nil => exact ⟨by simp [outermost], .nil⟩
  | append_singleton rest root ih =>
    have hstep : outermost page (rest ++ [root]) = addOutermost page (outermost page rest) root := by
      unfold outermost
      rw [List.foldl_append, List.foldl_cons, List.foldl_nil]
    rw [hstep]
    unfold addOutermost
    split
    · rename_i hany
      obtain ⟨k, hk, hcontains⟩ := List.any_eq_true.1 hany
      exact ih.covered hk (hf.contains_iff.1 hcontains)
    · rename_i hany
      refine ih.uncovered hf (fun r hr => exists_outermost_above hf hr) fun k hk habove => hany ?_
      exact List.any_eq_true.2 ⟨k, hk, hf.contains_iff.2 habove⟩

/--
Exactly the roots without another root above them are kept, each once, in the order in which they first occur.  None
of them contains another, and what they contain is what all roots contain.
-/
theorem outermost_keeps_topmost (hf : page.document.Forest) (roots : List NodeId) :
    (∀ n, n ∈ outermost page roots ↔ n ∈ roots ∧ ∀ r ∈ roots, ¬ page.document.ProperlyAbove r n) ∧
      (outermost page roots).Nodup ∧
      (outermost page roots).Pairwise (fun m n => roots.idxOf m < roots.idxOf n) ∧
      (∀ m ∈ outermost page roots, ∀ n ∈ outermost page roots, Page.contains page m n = true → m = n) ∧
      ∀ n, (∃ r ∈ outermost page roots, Page.contains page r n = true) ↔
        ∃ r ∈ roots, Page.contains page r n = true := by
  have hkept := keptOf_outermost hf roots
  have hcontains : ∀ m n, Page.contains page m n = true ↔ page.document.Above m n := fun _ _ => hf.contains_iff
  refine ⟨fun n => hkept.mem_iff, hkept.nodup, hkept.order, ?_, fun n => ?_⟩
  · intro m hm n hn h
    exact hkept.eq_of_above hm hn ((hcontains m n).1 h)
  · simp only [hcontains]
    constructor
    · rintro ⟨r, hr, ha⟩
      exact ⟨r, mem_of_mem_outermost hr, ha⟩
    · rintro ⟨r, hr, ha⟩
      obtain ⟨k, hk, hkr⟩ := exists_outermost_above hf hr
      exact ⟨k, hk, hkr.trans ha⟩

/-- A list with an item, and a rule, each with the attribute `on`. -/
def listAndRule : MemoryPage :=
  .withBody "<ul on><li on></li></ul><hr on>"

/-- The item comes first and goes when its list comes; after that it counts as covered. -/
theorem outermost_keeps_topmost_itemFirst :
    outermost listAndRule [3, 4, 3, 2, 4, 3] = [4, 2] ∧
      (∀ r ∈ [3, 4, 3, 2, 4, 3], ¬ listAndRule.document.ProperlyAbove r 2) ∧
      [3, 4, 3, 2, 4, 3].idxOf 4 < [3, 4, 3, 2, 4, 3].idxOf 2 ∧ Page.contains listAndRule 2 4 = false ∧
      ∃ r ∈ [4, 2], Page.contains listAndRule r 3 = true := by
  have hforest : listAndRule.document.Forest := MemoryPage.forest_withBody _
  have hkept : outermost listAndRule [3, 4, 3, 2, 4, 3] = [4, 2] := by decide +kernel
  obtain ⟨hmem, -, hordered, hapart, hcover⟩ := outermost_keeps_topmost hforest [3, 4, 3, 2, 4, 3]
  rw [hkept] at hmem hordered hapart hcover
  refine ⟨hkept, ((hmem 2).1 (by decide)).2, List.rel_of_pairwise_cons hordered (by decide), ?_, ?_⟩
  · rw [Bool.eq_false_iff]
    exact fun h => absurd (hapart 2 (by decide) 4 (by decide) h) (by decide)
  · exact (hcover 3).2 ⟨3, by decide, by decide +kernel⟩

/-! ### What is found -/

/-- The elements at and below a node that have an attribute. -/
def Document.carriers (d : Document) (marker : String) (root : NodeId) : List NodeId :=
  (root :: d.descendants root).filter fun n => (d.attribute? n marker).isSome

namespace Document.Forest

variable {d : Document} {marker : String}

theorem mem_carriers_iff (hf : d.Forest) :
    n ∈ d.carriers marker root ↔ (d.attribute? n marker).isSome = true ∧ d.Above root n := by
  unfold carriers
  rw [List.mem_filter, hf.mem_cons_descendants_iff]
  exact and_comm

theorem nodup_carriers (hf : d.Forest) (marker : String) (root : NodeId) : (d.carriers marker root).Nodup :=
  (hf.nodup_descendants root).filter _

theorem pairwise_carriers (hf : d.Forest) (marker : String) (root : NodeId) :
    (d.carriers marker root).Pairwise d.Before :=
  (hf.pairwise_before root).filter _

end Document.Forest

variable {marker : String} {scene : Scene MemoryPage}

/-- A search at and below a root finds those that have the attribute, without a report. -/
theorem declaringBelow_eq (hmarker : ∀ c ∈ marker.toList, Selector.isNameChar c = true) (scene : Scene MemoryPage)
    (root : NodeId) : declaringBelow marker scene root = (scene, scene.page.document.carriers marker root) := by
  have hquery : Page.query scene.page (some root) ("[" ++ marker ++ "]") =
      .ok ((scene.page.document.descendants root).filter fun n =>
        (scene.page.document.attribute? n marker).isSome) := by
    have hmatch : scene.page.document.isMatch [.has marker] =
        fun n => (scene.page.document.attribute? n marker).isSome := funext fun n => Bool.and_true _
    show MemoryPage.query scene.page (some root) ("[" ++ marker ++ "]") = _
    unfold MemoryPage.query
    rw [Selector.parse?_presence hmarker]
    dsimp only
    unfold Document.query
    rw [hmatch]
    rfl
  have hown : Page.hasAttribute scene.page root marker = (scene.page.document.attribute? root marker).isSome := rfl
  unfold declaringBelow Document.carriers
  rw [hquery, hown, List.filter_cons]
  dsimp only
  by_cases hroot : (scene.page.document.attribute? root marker).isSome = true
  · rw [if_pos hroot, if_pos hroot, List.singleton_append]
  · rw [if_neg hroot, if_neg hroot, List.nil_append]

theorem declaringElements_eq_flatMap (hmarker : ∀ c ∈ marker.toList, Selector.isNameChar c = true)
    (scene : Scene MemoryPage) (roots : List NodeId) : declaringElements marker scene roots =
      (scene, (outermost scene.page roots).flatMap (scene.page.document.carriers marker)) := by
  unfold declaringElements
  generalize outermost scene.page roots = tops
  induction tops using List.reverseRecOn with
  | nil => rfl
  | append_singleton rest root ih =>
    rw [List.foldl_append, ih, List.foldl_cons, List.foldl_nil, List.flatMap_append, List.flatMap_singleton]
    dsimp only
    rw [declaringBelow_eq hmarker]

/--
Each element that has the attribute and is a root or below one is found once, and nothing else is found.  What is
found at and below a root that no other root is above comes in one go, in document order.  Nothing is reported.
-/
theorem declaringElements_lists_once (hf : scene.page.document.Forest)
    (hmarker : ∀ c ∈ marker.toList, Selector.isNameChar c = true) (roots : List NodeId) :
    ∃ found, declaringElements marker scene roots = (scene, found) ∧ found.Nodup ∧
      (∀ n, n ∈ found ↔ Page.hasAttribute scene.page n marker = true ∧
        ∃ r ∈ roots, Page.contains scene.page r n = true) ∧
      ∀ r ∈ roots, (∀ other ∈ roots, ¬ scene.page.document.ProperlyAbove other r) →
        ∃ before block after, found = before ++ block ++ after ∧
          (∀ n, n ∈ block ↔ n ∈ found ∧ Page.contains scene.page r n = true) ∧
          block.Pairwise scene.page.document.Before := by
  have hkept := keptOf_outermost hf roots
  have heq := declaringElements_eq_flatMap hmarker scene roots
  have hcontains : ∀ m n, Page.contains scene.page m n = true ↔ scene.page.document.Above m n :=
    fun _ _ => hf.contains_iff
  have hmem : ∀ n, n ∈ (outermost scene.page roots).flatMap (scene.page.document.carriers marker) ↔
      Page.hasAttribute scene.page n marker = true ∧ ∃ r ∈ roots, Page.contains scene.page r n = true := by
    intro n
    simp only [hcontains]
    exact (congrArg (fun out => n ∈ out.2) heq).symm.to_iff.trans (mem_declaringElements_iff hf hmarker)
  refine ⟨_, heq, ?_, hmem, fun r hr htop => ?_⟩
  · rw [List.nodup_flatMap]
    refine ⟨fun r _ => hf.nodup_carriers marker r, hkept.nodup.imp_of_mem fun {k m} hk hm hne n hnk hnm => ?_⟩
    -- nothing is below two of the topmost roots
    rcases Document.above_or_above (hf.mem_carriers_iff.1 hnk).2 (hf.mem_carriers_iff.1 hnm).2 with ha | ha
    · exact hne (hkept.eq_of_above hk hm ha)
    · exact hne (hkept.eq_of_above hm hk ha).symm
  · obtain ⟨before, after, hsplit⟩ := List.append_of_mem (hkept.mem_iff.2 ⟨hr, htop⟩)
    refine ⟨before.flatMap (scene.page.document.carriers marker), _,
      after.flatMap (scene.page.document.carriers marker), ?_, fun n => ?_, hf.pairwise_carriers marker r⟩
    · rw [hsplit, List.flatMap_append, List.flatMap_cons, ← List.append_assoc]
    · rw [hmem, hf.mem_carriers_iff, hcontains]
      constructor
      · rintro ⟨hn, ha⟩
        exact ⟨⟨hn, r, hr, (hcontains r n).2 ha⟩, ha⟩
      · rintro ⟨⟨hn, -⟩, ha⟩
        exact ⟨hn, ha⟩

/-- The list comes after the rule, as among the roots, and is followed by its item. -/
theorem declaringElements_lists_once_itemFirst :
    declaringElements "on" { page := listAndRule } [3, 4, 3, 2, 4, 3] = ({ page := listAndRule }, [4, 2, 3]) ∧
      [4, 2, 3].Nodup ∧ (∃ r ∈ [3, 4, 3, 2, 4, 3], Page.contains listAndRule r 3 = true) ∧
      ∃ before block after, [4, 2, 3] = before ++ block ++ after ∧ 2 ∈ block ∧ 3 ∈ block ∧ 4 ∉ block ∧
        block.Pairwise listAndRule.document.Before := by
  have hforest : ({ page := listAndRule } : Scene MemoryPage).page.document.Forest := MemoryPage.forest_withBody _
  have hchars : "on".toList.all Selector.isNameChar = true := by decide +kernel
  obtain ⟨found, heq, hnodup, hmem, hblocks⟩ :=
    declaringElements_lists_once hforest (List.all_eq_true.1 hchars) [3, 4, 3, 2, 4, 3]
  obtain rfl : found = [4, 2, 3] :=
    (congrArg Prod.snd heq).symm.trans (by decide +kernel)
  have htop := ((keptOf_outermost hforest [3, 4, 3, 2, 4, 3]).mem_iff (n := 2)).1 (by decide +kernel)
  obtain ⟨before, block, after, hsplit, hblock, hordered⟩ := hblocks 2 htop.1 htop.2
  refine ⟨heq, hnodup, ((hmem 3).1 (by decide)).2, before, block, after, hsplit, ?_, ?_, ?_, hordered⟩
  · exact (hblock 2).2 ⟨by decide, by decide +kernel⟩
  · exact (hblock 3).2 ⟨by decide, by decide +kernel⟩
  · intro h
    exact absurd ((hblock 4).1 h).2 (by decide +kernel)

end PageBindings
