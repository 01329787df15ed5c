import PageBindings.Binding.Discovery
import PageBindings.Page.Memory
import PageBindings.Proofs.Document.Ancestry

/-!
# Which elements are found

In a forest the roots that are kept still cover all roots (`exists_outermost_above`).  A name of selector name
characters between brackets is a selector (`Selector.parse?_presence`), so that an element is found exactly if it has
the attribute and is at or below one of the roots (`mem_declaringElements_iff`).
-/

namespace PageBindings

/-! ### The selector of an attribute -/

namespace Text

theorem trimmed_of_ends {first last : Char} {cs : List Char} (hfirst : isBlank first = false)
    (hlast : isBlank last = false) : trimmed (first :: cs ++ [last]) = first :: cs ++ [last] := by
  unfold trimmed trimEnd
  rw [List.cons_append, List.dropWhile_cons_of_neg (by simp [hfirst]), ← List.cons_append, List.reverse_append,
    List.reverse_singleton, List.singleton_append, List.dropWhile_cons_of_neg (by simp [hlast])]
  simp

end Text

namespace Selector

theorem takeName_append_cons {cs rest : List Char} {c : Char} (hcs : ∀ x ∈ cs, isNameChar x = true)
    (hc : isNameChar c = false) : takeName (cs ++ c :: rest) = (String.ofList cs, c :: rest) := by
  unfold takeName
  rw [List.takeWhile_append_of_pos hcs, List.dropWhile_append_of_pos hcs, List.takeWhile_cons_of_neg (by simp [hc]),
    List.dropWhile_cons_of_neg (by simp [hc]), List.append_nil]

/-- A name in brackets selects the elements with the attribute. -/
theorem parse?_presence {name : String} (hname : ∀ c ∈ name.toList, isNameChar c = true) :
    parse? ("[" ++ name ++ "]") = some [.has name] := by
  have hcs : Text.trimmed ("[" ++ name ++ "]").toList = '[' :: name.toList ++ [']'] := by
    rw [String.toList_append, String.toList_append]
    exact Text.trimmed_of_ends (by decide) (by decide)
  have hread : readCondition? ('[' :: name.toList ++ [']']) = some (.has name, []) := by
    show readAttribute? (name.toList ++ [']']) = _
    unfold readAttribute?
    rw [takeName_append_cons hname (by decide +kernel), String.ofList_toList]
    rfl
  unfold parse?
  rw [hcs]
  dsimp only
  rw [List.cons_append, List.length_cons, readConditions?, ← List.cons_append, hread]
  simp [readConditions?]

end Selector

/-! ### Roots -/

variable {page : MemoryPage} {roots : List NodeId} {n r : NodeId}

theorem mem_addOutermost {kept : List NodeId} {root : NodeId} (h : n ∈ addOutermost page kept root) :
    n ∈ kept ∨ n = root := by
  unfold addOutermost at h
  split at h
  · exact .inl h
  · rcases List.mem_append.1 h with h | h
    · exact .inl (List.mem_filter.1 h).1
    · exact .inr (List.mem_singleton.1 h)

/-- Adding a root covers it and all that was covered. -/
private theorem exists_addOutermost_above (hf : page.document.Forest) (kept : List NodeId) (root : NodeId)
    (h : n = root ∨ ∃ k ∈ kept, page.document.Above k n) :
    ∃ k ∈ addOutermost page kept root, page.document.Above k n := by
  unfold addOutermost
  split
  · rename_i hany
    rcases h with rfl | h
    · obtain ⟨k, hk, hc⟩ := List.any_eq_true.1 hany
      exact ⟨k, hk, hf.contains_iff.1 hc⟩
    · exact h
  · rcases h with rfl | ⟨k, hk, ha⟩
    · exact ⟨n, List.mem_append_right _ (List.mem_singleton_self n), .refl _ n⟩
    · cases hc : page.document.contains root k with
      | true => exact ⟨root, List.mem_append_right _ (List.mem_singleton_self root), (hf.contains_iff.1 hc).trans ha⟩
      | false =>
        have hc : Page.contains page root k = false := hc
        exact ⟨k, List.mem_append_left _ (List.mem_filter.2 ⟨hk, by simp [hc]⟩), ha⟩

theorem mem_of_mem_outermost (h : n ∈ outermost page roots) : n ∈ roots := by
  unfold outermost at h
  suffices ∀ kept, n ∈ roots.foldl (addOutermost page) kept → n ∈ kept ∨ n ∈ roots by
    rcases this [] h with h | h
    · simp at h
    · exact h
  clear h
  induction roots with
  | nil => exact fun kept h => .inl h
  | cons root rest ih =>
    intro kept h
    rcases ih _ h with h | h
    · rcases mem_addOutermost h with h | rfl
      · exact .inl h
      · exact .inr List.mem_cons_self
    · exact .inr (List.mem_cons_of_mem _ h)

theorem exists_outermost_above (hf : page.document.Forest) (hr : r ∈ roots) :
    ∃ k ∈ outermost page roots, page.document.Above k r := by
  unfold outermost
  suffices ∀ kept, (r ∈ roots ∨ ∃ k ∈ kept, page.document.Above k r) →
      ∃ k ∈ roots.foldl (addOutermost page) kept, page.document.Above k r from this [] (.inl hr)
  clear hr
  induction roots with
  | nil =>
    rintro kept (h | h)
    · simp at h
    · exact h
  | cons root rest ih =>
    intro kept h
    refine ih _ ?_
    rcases h with h | h
    · rcases List.mem_cons.1 h with h | h
      · exact .inr (exists_addOutermost_above hf kept root (.inl h))
      · exact .inl h
    · exact .inr (exists_addOutermost_above hf kept root (.inr h))

/-! ### Elements -/

variable {marker : String} {scene : Scene MemoryPage}

/-- What a search of the document finds is attached. -/
theorem attached_of_mem_query {selector : String} {found : List NodeId} (hf : page.document.Forest)
    (h : Page.query page none selector = .ok found) (hn : n ∈ found) : page.document.Above Document.root n := by
  simp only [Page.query, MemoryPage.query] at h
  split at h
  · simp at h
  · obtain rfl := Except.ok.inj h
    have hbelow := hf.mem_descendants_iff.1 (List.mem_filter.1 hn).1
    exact Document.above_iff_eq_or_properlyAbove.2 (.inr hbelow)

theorem page_declaringBelow (marker : String) (scene : Scene MemoryPage) (root : NodeId) :
    (declaringBelow marker scene root).1.page = scene.page := by
  unfold declaringBelow
  dsimp only
  split <;> rfl

theorem declaringBelow_congr {scene scene' : Scene MemoryPage} (h : scene.page = scene'.page) (root : NodeId) :
    (declaringBelow marker scene root).2 = (declaringBelow marker scene' root).2 := by
  unfold declaringBelow
  rw [h]
  cases Page.query scene'.page (some root) ("[" ++ marker ++ "]") <;> rfl

/-- The elements are those of each outermost root in turn. -/
theorem declaringElements_eq (marker : String) (scene : Scene MemoryPage) (roots : List NodeId) :
    (declaringElements marker scene roots).1.page = scene.page ∧
      (declaringElements marker scene roots).2 =
        (outermost scene.page roots).flatMap fun root => (declaringBelow marker scene root).2 := by
  unfold declaringElements
  suffices ∀ (tops : List NodeId) (start : Scene MemoryPage) (found : List NodeId), start.page = scene.page →
      (tops.foldl (fun (scene, found) root =>
        let (scene, more) := declaringBelow marker scene root
        (scene, found ++ more)) (start, found)).1.page = scene.page ∧
      (tops.foldl (fun (scene, found) root =>
        let (scene, more) := declaringBelow marker scene root
        (scene, found ++ more)) (start, found)).2 =
        found ++ tops.flatMap fun root => (declaringBelow marker scene root).2 from this _ _ _ rfl
  intro tops
  induction tops with
  | nil => simp
  | cons root rest ih =>
    intro start found hstart
    have h := ih (declaringBelow marker start root).1 (found ++ (declaringBelow marker start root).2)
      ((page_declaringBelow marker start root).trans hstart)
    rw [declaringBelow_congr hstart, List.append_assoc] at h
    rw [List.flatMap_cons, ← declaringBelow_congr hstart]
    rw [← declaringBelow_congr hstart] at h
    exact h

theorem page_declaringElements (marker : String) (scene : Scene MemoryPage) (roots : List NodeId) :
    (declaringElements marker scene roots).1.page = scene.page :=
  (declaringElements_eq marker scene roots).1

private theorem mem_declaringBelow_iff (hf : scene.page.document.Forest)
    (hmarker : ∀ c ∈ marker.toList, Selector.isNameChar c = true) {root : NodeId} :
    n ∈ (declaringBelow marker scene root).2 ↔
      (scene.page.document.attribute? n marker).isSome ∧ scene.page.document.Above root n := by
  have hquery : Page.query scene.page (some root) ("[" ++ marker ++ "]") =
      .ok (scene.page.document.query root [.has marker]) := by
    show MemoryPage.query scene.page (some root) ("[" ++ marker ++ "]") = _
    unfold MemoryPage.query
    rw [Selector.parse?_presence hmarker]
    rfl
  have hown : ∀ m, Page.hasAttribute scene.page m marker = (scene.page.document.attribute? m marker).isSome :=
    fun _ => rfl
  unfold declaringBelow
  rw [hquery]
  simp only [List.mem_append, hown, Document.query, List.mem_filter, hf.mem_descendants_iff, Document.isMatch,
    List.all_cons, List.all_nil, Bool.and_true, Document.meets]
  rw [Document.above_iff_eq_or_properlyAbove]
  constructor
  · rintro (h | h)
    · split at h
      · rename_i hsome
        obtain rfl := List.mem_singleton.1 h
        exact ⟨hsome, .inl rfl⟩
      · simp at h
    · exact ⟨h.2, .inr h.1⟩
  · rintro ⟨hsome, rfl | h⟩
    · left
      rw [if_pos hsome]
      exact List.mem_singleton_self _
    · exact .inr ⟨h, hsome⟩

/-- An element is found exactly if it has the attribute and is at or below a root. -/
theorem mem_declaringElements_iff (hf : scene.page.document.Forest)
    (hmarker : ∀ c ∈ marker.toList, Selector.isNameChar c = true) :
    n ∈ (declaringElements marker scene roots).2 ↔
      (scene.page.document.attribute? n marker).isSome ∧ ∃ r ∈ roots, scene.page.document.Above r n := by
  rw [(declaringElements_eq marker scene roots).2]
  simp only [List.mem_flatMap, mem_declaringBelow_iff hf hmarker]
  constructor
  · rintro ⟨r, hr, hsome, ha⟩
    exact ⟨hsome, r, mem_of_mem_outermost hr, ha⟩
  · rintro ⟨hsome, r, hr, ha⟩
    obtain ⟨k, hk, hkr⟩ := exists_outermost_above hf hr
    exact ⟨k, hk, hsome, hkr.trans ha⟩

end PageBindings
