import PageBindings.Proofs.Document.Grafting
import PageBindings.Proofs.Document.Order
import PageBindings.Proofs.Selector.Attribute

/-!
# Which elements a selector finds

A search of the whole document lists the elements of the document that match, in document order and each once
(`MemoryPage.lists_query`).  The selector of a view is always read, and what it asks for is the view id, character by
character, so that it finds the elements of this view and no others (`view_selector_finds`).
-/

namespace PageBindings

variable {page : MemoryPage}

/-- The list has the elements of the document with a property, in document order and each once. -/
structure MemoryPage.Lists (page : MemoryPage) (p : NodeId → Prop) (found : List NodeId) : Prop where
  ordered : found.Pairwise page.document.Before
  nodup : found.Nodup
  mem_iff (node : NodeId) : node ∈ found ↔ node ≠ Document.root ∧ Page.isConnected page node = true ∧ p node

theorem MemoryPage.forest_withBody (markup : String) : (withBody markup).document.Forest :=
  Document.forest_withBody markup

/-- The nodes below the document node are the elements of the document. -/
theorem MemoryPage.mem_descendants_root_iff (hf : page.document.Forest) {node : NodeId} :
    node ∈ page.document.descendants Document.root ↔ node ≠ Document.root ∧ Page.isConnected page node = true := by
  show _ ↔ _ ∧ page.document.isAttached node = true
  rw [hf.mem_descendants_iff, hf.isAttached_iff, Document.above_iff_eq_or_properlyAbove]
  constructor
  · intro h
    exact ⟨fun he => hf.acyclic Document.root (he ▸ h), .inr h⟩
  · rintro ⟨hne, he | h⟩
    · exact absurd he.symm hne
    · exact h

theorem MemoryPage.query_of_parse? {selector : String} {conditions : Selector}
    (h : Selector.parse? selector = some conditions) (page : MemoryPage) :
    Page.query page none selector = .ok (page.document.query Document.root conditions) := by
  show MemoryPage.query page none selector = _
  unfold MemoryPage.query
  rw [h]
  rfl

theorem MemoryPage.exists_error_of_parse? {selector : String} (h : Selector.parse? selector = none)
    (page : MemoryPage) : ∃ cause, Page.query page none selector = .error cause := by
  show ∃ cause, MemoryPage.query page none selector = .error cause
  unfold MemoryPage.query
  rw [h]
  exact ⟨_, rfl⟩

/-- A search reads nothing but the document. -/
theorem MemoryPage.query_congr {page' : MemoryPage}
    (h : ∀ conditions, page'.document.query Document.root conditions = page.document.query Document.root conditions)
    (selector : String) : Page.query page' none selector = Page.query page none selector := by
  cases hparse : Selector.parse? selector with
  | none =>
    show MemoryPage.query page' none selector = MemoryPage.query page none selector
    unfold MemoryPage.query
    rw [hparse]
  | some conditions => rw [query_of_parse? hparse, query_of_parse? hparse, h]

/-- What a search of the document gives. -/
theorem MemoryPage.lists_query (hf : page.document.Forest) {selector : String} {conditions : Selector}
    (h : Selector.parse? selector = some conditions) :
    ∃ found, Page.query page none selector = .ok found ∧
      page.Lists (fun node => page.document.isMatch conditions node = true) found := by
  refine ⟨page.document.query Document.root conditions, query_of_parse? h page, ?_, ?_, fun node => ?_⟩
  · exact (List.pairwise_cons.1 (hf.pairwise_before Document.root)).2.filter _
  · exact (List.nodup_cons.1 (hf.nodup_descendants Document.root)).2.filter _
  · rw [Document.query, List.mem_filter, mem_descendants_root_iff hf, and_assoc]

theorem MemoryPage.Lists.isAttached {p : NodeId → Prop} {found : List NodeId} {node : NodeId} (h : page.Lists p found)
    (hmem : node ∈ found) : page.document.isAttached node = true :=
  ((h.mem_iff node).1 hmem).2.1

/-- The selector of a view finds the elements with its id, whatever is in the id. -/
theorem view_selector_finds {names : Vocabulary} (hf : page.document.Forest)
    (hname : ∀ c ∈ names.viewId.toList, Selector.isNameChar c = true) (view : View) :
    ∃ found, Page.query page none (view.selector names) = .ok found ∧
      page.Lists (fun node => Page.attribute? page node names.viewId = some view.id) found := by
  obtain ⟨found, hquery, ordered, nodup, mem_iff⟩ := page.lists_query hf (Selector.parse?_forAttribute hname view.id)
  refine ⟨found, hquery, ordered, nodup, fun node => (mem_iff node).trans ?_⟩
  have hmatch : page.document.isMatch [.equals names.viewId view.id] node = true ↔
      Page.attribute? page node names.viewId = some view.id := by
    show (page.document.attribute? node names.viewId == some view.id && true) = true ↔ _
    rw [Bool.and_true, beq_iff_eq]
    rfl
  rw [hmatch]

/-- A view in another one of the same id, and one whose id this begins with. -/
def namesakes : MemoryPage :=
  .withBody "<p silta-view-id='a\"]\n \\'><q silta-view-id='a\"]\n \\'></q></p><p silta-view-id='a'></p>"

theorem view_selector_finds_namesakes :
    ∃ found, Page.query namesakes none (View.selector {} ⟨"a\"]\n \\", none, none⟩) = .ok found ∧
      2 ∈ found ∧ 3 ∈ found ∧ 4 ∉ found := by
  have hname : ({} : Vocabulary).viewId.toList.all Selector.isNameChar = true := by decide +kernel
  have hforest : namesakes.document.Forest := MemoryPage.forest_withBody _
  have hconnected : Page.isConnected namesakes 2 = true ∧ Page.isConnected namesakes 3 = true := by decide +kernel
  have hids : Page.attribute? namesakes 2 "silta-view-id" = some "a\"]\n \\" ∧
      Page.attribute? namesakes 3 "silta-view-id" = some "a\"]\n \\" ∧
      Page.attribute? namesakes 4 "silta-view-id" = some "a" := by decide +kernel
  obtain ⟨hid, hinner, hother⟩ := hids
  obtain ⟨found, hquery, hlists⟩ := view_selector_finds hforest (List.all_eq_true.1 hname) ⟨"a\"]\n \\", none, none⟩
  refine ⟨found, hquery, (hlists.mem_iff 2).2 ?_, (hlists.mem_iff 3).2 ?_, fun h => ?_⟩
  · exact ⟨by decide, hconnected.1, hid⟩
  · exact ⟨by decide, hconnected.2, hinner⟩
  · have heq := ((hlists.mem_iff 4).1 h).2.2
    rw [show ({} : Vocabulary).viewId = "silta-view-id" from rfl, hother] at heq
    exact absurd heq (by decide)

end PageBindings
