import PageBindings.Proofs.Client.Commuting
import PageBindings.Proofs.Page.Views

/-!
# Pushed fragments are patched in

A pushed fragment is made before its place is looked up; a patch looks up its targets first and makes the fragment for
each of them.  What is made hangs below nothing, so that a search finds the same elements with it and without
(`Document.Forest.query_read`).  So if one element has the view id of the fragment, a push and a swap of this view are
the same in all that they do (`swapPushed_eq_patch`).
-/

namespace PageBindings

variable {page : MemoryPage} {html : String}

/-- A search does not find what was read and not put in. -/
theorem Document.Forest.query_read {d : Document} (hf : d.Forest) (markup : String) (conditions : Selector) :
    (d.read markup).1.query root conditions = d.query root conditions := by
  have hf' := (grows_read d markup).forest hf
  have hlabels : ((d.read markup).1.tree id root).labels = (d.tree id root).labels := by
    rw [hf.tree_read]
  rw [hf'.labels_tree, hf.labels_tree, List.map_id, List.map_id] at hlabels
  have hdescendants := (List.cons.inj hlabels).2
  unfold query
  rw [hdescendants]
  refine List.filter_congr fun n hn => ?_
  have hbelow := hf.mem_cons_descendants_iff.1 (List.mem_cons_of_mem root hn)
  have hsize : n < d.size := hbelow.lt_size hf.root_lt_size
  exact isMatch_congr ((grows_read d markup).tag hsize) ((grows_read d markup).attributes hsize) conditions

theorem Document.isMatch_equals_iff (d : Document) (name value : String) (n : NodeId) :
    d.isMatch [.equals name value] n = true ↔ d.attribute? n name = some value := by
  show (d.attribute? n name == some value && true) = true ↔ _
  rw [Bool.and_true, beq_iff_eq]

namespace MemoryPage

theorem Lists.eq_singleton {p : NodeId → Prop} {found : List NodeId} (h : page.Lists p found)
    (hone : ∃! node, node ≠ Document.root ∧ Page.isConnected page node = true ∧ p node) :
    ∃ target, found = [target] ∧ target ≠ Document.root ∧ Page.isConnected page target = true ∧ p target := by
  obtain ⟨target, htarget, hunique⟩ := hone
  have hmem : target ∈ found := (h.mem_iff target).2 htarget
  have hall : ∀ node ∈ found, node = target := fun node hnode => hunique node ((h.mem_iff node).1 hnode)
  refine ⟨target, ?_, htarget⟩
  cases found with
  | nil => exact absurd hmem List.not_mem_nil
  | cons first rest =>
    have hfirst : first = target := hall first List.mem_cons_self
    have hnodup := List.nodup_cons.1 h.nodup
    cases rest with
    | nil => rw [hfirst]
    | cons second others =>
      have hsecond : second = target := hall second (List.mem_cons_of_mem first List.mem_cons_self)
      refine absurd ?_ hnodup.1
      rw [hfirst, ← hsecond]
      exact List.mem_cons_self

theorem query_create {made : MemoryPage} {element : Option NodeId} (hf : page.document.Forest)
    (h : page.create html = .ok (element, made)) (selector : String) :
    Page.query made none selector = Page.query page none selector := by
  obtain ⟨-, -, handedOut, hmade⟩ := create_eq_ok h
  refine query_congr (fun conditions => ?_) selector
  rw [hmade]
  exact hf.query_read html conditions

end MemoryPage

namespace Markup

/-- The view id of the first element of a fragment. -/
def viewId? (names : Vocabulary) (html : String) : Option String :=
  (Document.empty.read html).2.head?.bind fun first => (Document.empty.read html).1.attribute? first names.viewId

theorem exists_create_of_viewId? {names : Vocabulary} {id : String} (hf : page.document.Forest)
    (hallowed : MemoryPage.Capability.create ∉ page.refused) (h : viewId? names html = some id) :
    ∃ element made, page.create html = .ok (some element, made) ∧
      Page.attribute? made element names.viewId = some id := by
  obtain ⟨first, hfirst, hid⟩ := Option.bind_eq_some_iff.1 h
  obtain ⟨k, -, hhead, hcopy⟩ := Document.exists_copy_read hf hfirst
  obtain ⟨handedOut, hcreate⟩ := MemoryPage.create_eq_some hallowed hhead
  refine ⟨first + k, _, hcreate, ?_⟩
  obtain ⟨hpos, hlt, -⟩ := Document.root_read (List.mem_of_mem_head? hfirst)
  have hbare := hcopy.bare? hpos hlt
  show (page.document.read html).1.attribute? (first + k) names.viewId = some id
  rw [Document.attribute?_congr (Document.attributes_congr hbare), hid]

end Markup

theorem exists_insertElement {target element : NodeId} {made : MemoryPage} (hf : page.document.Forest)
    (hallowed : MemoryPage.Capability.replace ∉ page.refused) (hroot : target ≠ Document.root)
    (hconnected : Page.isConnected page target = true) (h : page.create html = .ok (some element, made)) :
    ∃ next, insertElement .swap made target element = .ok next := by
  obtain ⟨-, -, handedOut, rfl⟩ := MemoryPage.create_eq_ok h
  obtain ⟨document, hput⟩ := Document.exists_put?_read hf hconnected hroot .swap html element
  have hadmits : MemoryPage.admits page.refused .swap = true := by
    simpa [MemoryPage.admits, MemoryPage.Capability.ofKind?] using hallowed
  exact ⟨_, (MemoryPage.insertElement_of_put? { page with document := (page.document.read html).1, handedOut } rfl
    hput).1 hadmits⟩

/--
A push of a fragment and a swap of its view, from the same scene, have the same outcome and leave the same scene, down
to the numbers of the nodes: for a fragment with a view id that exactly one element of the document has.
-/
theorem swapPushed_eq_patch {id : String} (client : Client MemoryPage) (scene : Scene MemoryPage) (html : String)
    (hf : scene.page.document.Forest) (hallowed : scene.page.refused = [])
    (hname : ∀ c ∈ client.settings.vocabulary.viewId.toList, Selector.isNameChar c = true)
    (hid : Markup.viewId? client.settings.vocabulary html = some id)
    (hone : ∃! node, node ≠ Document.root ∧ Page.isConnected scene.page node = true ∧
      Page.attribute? scene.page node client.settings.vocabulary.viewId = some id) :
    client.swapPushed scene html =
        client.patch scene .swap (Selector.forAttribute client.settings.vocabulary.viewId id) (some html) ∧
      ∃ element, (client.swapPushed scene html).2 = .ok { kind := .swap, inserted := [element] } := by
  have hcreatable : MemoryPage.Capability.create ∉ scene.page.refused := by
    rw [hallowed]
    exact List.not_mem_nil
  have hreplaceable : MemoryPage.Capability.replace ∉ scene.page.refused := by
    rw [hallowed]
    exact List.not_mem_nil
  obtain ⟨element, made, hcreate, hattribute⟩ := Markup.exists_create_of_viewId? hf hcreatable hid
  obtain ⟨found, hquery, hlists⟩ := scene.page.lists_query hf (Selector.parse?_forAttribute hname id)
  simp only [Document.isMatch_equals_iff] at hlists
  obtain ⟨target, rfl, hroot, hconnected, -⟩ := hlists.eq_singleton hone
  have hquery' := (MemoryPage.query_create hf hcreate _).trans hquery
  obtain ⟨next, hinsert⟩ := exists_insertElement hf hreplaceable hroot hconnected hcreate
  have hcreate : Page.create scene.page html = .ok (some element, made) := hcreate
  -- the push makes the element first and looks up its place then
  have hpush : client.swapPushed scene html =
      (client.bindInserted { scene with page := next } { kind := .swap, inserted := [element] },
        .ok { kind := .swap, inserted := [element] }) := by
    unfold Client.swapPushed
    simp only [hcreate, hattribute, hquery', hinsert]
  -- the patch looks up its one target first and makes the element for it
  have hone : patchElement .swap (some html) scene target = ({ scene with page := next }, .ok [element]) := by
    unfold patchElement patchWithContent
    simp only [hconnected, hcreate, hinsert]
    rfl
  have hpatch : patch .swap (Selector.forAttribute client.settings.vocabulary.viewId id) (some html) scene =
      ({ scene with page := next }, .ok { kind := .swap, inserted := [element] }) := by
    unfold patch patchElements
    simp only [hquery, patchTargets, hone]
    rfl
  refine ⟨?_, element, by rw [hpush]⟩
  rw [hpush]
  unfold Client.patch
  rw [hpatch]

/-- A view whose id has to be escaped in selectors, beside one with a prefix of this id. -/
def quotedView : Scene MemoryPage :=
  { page := .withBody "<p silta-view-id='a\"\n \\'></p><p silta-view-id='a'></p>" }

/-- A new state of this view, with another view in it that declares a binding. -/
def quotedViewUpdate : String :=
  "<p silta-view-id='a\"\n \\'><q silta-view-id='b' silta-events='\x7b\"click\":[[\"reset\"]]\x7d'></q></p>"

theorem swapPushed_eq_patch_quoted :
    (∃! node, node ≠ Document.root ∧ Page.isConnected quotedView.page node = true ∧
      Page.attribute? quotedView.page node "silta-view-id" = some "a\"\n \\") ∧
    plainClient.swapPushed quotedView quotedViewUpdate =
      plainClient.patch quotedView .swap "[silta-view-id=\"a\\\"\\a  \\\\\"]" (some quotedViewUpdate) ∧
    (plainClient.swapPushed quotedView quotedViewUpdate).1.page.listeners.length = 1 := by
  have hforest : quotedView.page.document.Forest := MemoryPage.forest_withBody _
  have hname : plainClient.settings.vocabulary.viewId.toList.all Selector.isNameChar = true := by decide +kernel
  have hid : Markup.viewId? plainClient.settings.vocabulary quotedViewUpdate = some "a\"\n \\" := by decide +kernel
  have hone : ∃! node, node ≠ Document.root ∧ Page.isConnected quotedView.page node = true ∧
      Page.attribute? quotedView.page node "silta-view-id" = some "a\"\n \\" := by
    refine ⟨2, by decide +kernel, fun node hnode => ?_⟩
    have hmem := (MemoryPage.mem_descendants_root_iff hforest).2 ⟨hnode.1, hnode.2.1⟩
    have hall : ∀ n ∈ quotedView.page.document.descendants Document.root,
        Page.attribute? quotedView.page n "silta-view-id" = some "a\"\n \\" → n = 2 := by decide +kernel
    exact hall node hmem hnode.2.2
  have heq := (swapPushed_eq_patch plainClient quotedView quotedViewUpdate hforest rfl (List.all_eq_true.1 hname) hid
    hone).1
  exact ⟨hone, heq, by decide +kernel⟩

end PageBindings
