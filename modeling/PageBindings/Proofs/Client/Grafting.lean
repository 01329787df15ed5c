import PageBindings.Proofs.Client.Marks
import PageBindings.Proofs.Client.Run
import PageBindings.Proofs.Patch.Planting

/-!
# A patch of a client is a graft

What a client puts in is a tree that depends on the fragment, on its own settings and on what the page refuses, and on
nothing else (`Client.planting`): wherever the fragment is read, its elements get the same listeners
(`features_copy`).  So patching and binding the targets of a selector grafts this tree onto the shape of the page
(`patch_grafts`), unless something stands in the way.
-/

namespace PageBindings

open Relation (ReflTransGen)

variable {client : Client MemoryPage} {page page' : MemoryPage} {scene : Scene MemoryPage} {known base k : Nat}
  {j m n sprout : NodeId} {roots targets : List NodeId} {source : Document}

namespace MemoryPage

theorem view?_congr (h : page.document.bare? n = page'.document.bare? m) (names : Vocabulary) :
    Page.view? page names n = Page.view? page' names m := by
  unfold Page.view?
  simp only [Page.attribute?, Document.attribute?_congr (Document.attributes_congr h)]

theorem declared?_congr (h : page.document.bare? n = page'.document.bare? m) (names : Vocabulary) :
    page.declared? names n = page'.declared? names m := by
  unfold declared?
  simp only [view?_congr h, Page.attribute?, Document.attribute?_congr (Document.attributes_congr h)]

theorem announces_congr (h : page.document.bare? n = page'.document.bare? m) (names : Vocabulary)
    (eventType : String) : page.Announces names n eventType ↔ page'.Announces names m eventType := by
  unfold Announces
  rw [declared?_congr h]

theorem searched_congr (h : page.document.bare? n = page'.document.bare? m) (marker : String) :
    page.Searched marker n ↔ page'.Searched marker m := by
  unfold Searched
  simp only [Document.isMatch_congr (Document.tag_congr h) (Document.attributes_congr h)]

/-- No mark and no listener is on a node that is not in use. -/
theorem Seated.length_listenersOf (h : page.Seated) (hn : page.document.size ≤ n) (eventType : String) :
    (n, eventType) ∉ page.marks ∧ (page.listenersOf n eventType).length = 0 := by
  constructor
  · intro hmark
    exact absurd (h.marks _ hmark) (Nat.not_lt.2 hn)
  · unfold listenersOf
    rw [List.length_eq_zero_iff, List.filter_eq_nil_iff]
    intro listener hmem hat
    have hlt := h.listeners listener hmem
    have hnode : listener.node = n := beq_iff_eq.1 ((Bool.and_eq_true _ _).mp hat).1
    exact absurd (hnode ▸ hlt) (Nat.not_lt.2 hn)

end MemoryPage

namespace Client

/-! ### What stays when a client does something -/

theorem grows_of_changes (h : ReflTransGen client.Change page page') : page.document.Grows page'.document := by
  induction h with
  | refl => exact .refl _
  | tail _ hlast ih =>
    cases hlast with
    | edit grows => exact ih.trans grows
    | bind binds => rwa [document_of_binds (.single binds)]
    | send => exact ih

theorem seated_of_changes (h : ReflTransGen client.Change page page') (hs : page.Seated) : page'.Seated := by
  induction h with
  | refl => exact hs
  | tail _ hlast ih =>
    cases hlast with
    | edit grows =>
      refine ⟨fun mark hmark => ?_, fun listener hmem => ?_⟩
      · exact Nat.lt_of_lt_of_le (ih.marks mark hmark) grows.size_le
      · exact Nat.lt_of_lt_of_le (ih.listeners listener hmem) grows.size_le
    | bind binds =>
      cases binds with
      | intro _ _ declares =>
        obtain ⟨bindings, hdeclared, -⟩ := declares.actions
        have hlt := MemoryPage.lt_size_of_declared? hdeclared
        refine ⟨fun mark hmark => ?_, fun listener hmem => ?_⟩
        · rcases List.mem_cons.1 hmark with rfl | hmark
          · exact hlt
          · exact ih.marks mark hmark
        · rcases List.mem_append.1 hmem with hmem | hmem
          · exact ih.listeners listener hmem
          · exact List.mem_singleton.1 hmem ▸ hlt
    | send => exact ⟨ih.marks, ih.listeners⟩

/-! ### New elements -/

/-- Where nothing is bound yet there is a listener for each mark that a scan sets. -/
private theorem length_listenersOf_scan (eventType : String)
    (hn : (n, eventType) ∉ scene.page.marks ∧ (scene.page.listenersOf n eventType).length = 0) :
    ((client.scan scene roots).1.page.listenersOf n eventType).length =
      if (n, eventType) ∈ (client.scan scene roots).1.page.marks then 1 else 0 := by
  rw [length_listenersOf_of_binds (binds_scan client scene roots), hn.2, Nat.zero_add]
  simp only [hn.1, not_false_eq_true, and_true]

/-- The elements of a copy get the listeners that those of the original get. -/
theorem features_copy (client : Client MemoryPage) (hf : scene.page.document.Forest) (hs : source.Forest)
    (hcopy : scene.page.document.Holds source k) (hsprout : 0 < sprout ∧ sprout < source.size)
    (hunbound : ∀ eventType, (j + k, eventType) ∉ scene.page.marks ∧
      (scene.page.listenersOf (j + k) eventType).length = 0)
    (hknown : known ≤ k + 1) (hapart : roots.Pairwise scene.page.Apart) (hroot : sprout + k ∈ roots)
    (hj : source.Above sprout j) :
    (client.scan scene roots).1.page.features known (j + k) =
      (client.scan { page := { document := source, refused := scene.page.refused } }
        [sprout]).1.page.features 0 j := by
  have hpos := hs.pos_of_above hsprout.1 hj
  have hbare := hcopy.bare? hpos (hj.lt_size hsprout.2)
  have habove : scene.page.document.Above (sprout + k) (j + k) :=
    (hcopy.above_iff hs hf hsprout.1 hsprout.2).2 ⟨j, hj, rfl⟩
  apply MemoryPage.features_congr
  · unfold MemoryPage.features
    rw [if_neg (Nat.not_lt.2 (Document.le_add_of_pos hknown hpos)), if_neg (Nat.not_lt_zero j)]
  · rw [document_of_binds (binds_scan client _ roots), document_of_binds (binds_scan client _ [sprout])]
    exact hbare
  · intro eventType
    rw [length_listenersOf_scan eventType (hunbound eventType), length_listenersOf_scan eventType ⟨by simp, rfl⟩]
    refine if_congr ?_ rfl rfl
    rw [mem_marks_scan_of_above hf hapart hroot habove,
      mem_marks_scan_of_above hs (List.pairwise_singleton _ _) List.mem_cons_self hj]
    refine or_congr (iff_of_false (hunbound eventType).1 (by simp)) (and_congr_right fun _ => and_congr ?_ ?_)
    · exact or_congr ⟨Nat.add_right_cancel, fun h => h ▸ rfl⟩ (MemoryPage.searched_congr hbare _)
    · exact MemoryPage.announces_congr hbare _ eventType

/-! ### Whole patches -/

/-- What a patch of the client does at its targets. -/
def planting (client : Client MemoryPage) (refused : List MemoryPage.Capability) (kind : PatchKind)
    (fragment : Option String) : Planting :=
  let source := (Document.empty.read (fragment.getD "")).1
  let sprout := (Document.empty.read (fragment.getD "")).2.headD Document.root
  { kind, admitted := MemoryPage.admits refused kind, source, sprout
    features := (client.scan { page := { document := source, refused } } [sprout]).1.page.features 0 }

variable {kind : PatchKind} {fragment : Option String} {selector : String} {refused : List MemoryPage.Capability}

/-- The features of what is put in are those that it gets on a page with nothing else. -/
theorem features_planting (client : Client MemoryPage) (refused : List MemoryPage.Capability) (kind : PatchKind)
    (fragment : Option String) (j : NodeId) : (client.planting refused kind fragment).features j =
      (client.scan { page := { document := (client.planting refused kind fragment).source, refused } }
        [(client.planting refused kind fragment).sprout]).1.page.features 0 j := by
  simp only [planting]

theorem forest_planting (client : Client MemoryPage) (refused : List MemoryPage.Capability) (kind : PatchKind)
    (fragment : Option String) : (client.planting refused kind fragment).source.Forest :=
  Document.forest_read_empty (fragment.getD "")

theorem isMatch_planting (j : NodeId) (conditions : Selector) :
    ((client.planting refused kind fragment).features j).isMatch conditions =
      (client.planting refused kind fragment).source.isMatch conditions j := by
  rw [features_planting, MemoryPage.isMatch_features, document_of_binds (binds_scan client _ _)]

theorem number_planting (client : Client MemoryPage) (refused : List MemoryPage.Capability) (kind : PatchKind)
    (fragment : Option String) :
    ∀ features ∈ (client.planting refused kind fragment).scion.labels, features.number = none := by
  intro features hmem
  obtain ⟨m, -, rfl⟩ := (forest_planting client refused kind fragment).mem_labels_tree_iff.1 hmem
  show (if m < 0 then some m else none) = none
  exact if_neg (Nat.not_lt_zero m)

theorem suits_planting (client : Client MemoryPage) (refused : List MemoryPage.Capability) (kind : PatchKind)
    (fragment : Option String) : (client.planting refused kind fragment).Suits refused kind fragment where
  kind_eq := rfl
  admitted_eq := rfl
  read {html} h has := by
    subst h
    refine ⟨rfl, ?_⟩
    show _ = some ((Document.empty.read html).2.headD Document.root)
    obtain ⟨first, hfirst⟩ := Document.empty.exists_head?_read has
    rw [List.headD_eq_head?_getD, hfirst]
    rfl
  number := number_planting client refused kind fragment

/-- New elements lie apart: what is above one of them is an old node. -/
private theorem pairwise_apart {planting : Planting} {d : Document} {inserted : List NodeId}
    (h : Planted planting known d.size targets d page.document inserted) (hf : d.Forest) :
    inserted.Pairwise page.Apart := by
  have hf' := h.grows.forest hf
  have hout : ∀ a ∈ inserted, ∀ b ∈ inserted, a ≠ b → page.document.contains a b = false := by
    intro a ha b hb hne
    rw [Bool.eq_false_iff]
    intro hcontains
    rcases Document.above_iff.1 (hf'.contains_iff.1 hcontains) with he | ⟨p, hp, hap⟩
    · exact hne he
    · have hold := h.parent? b hb p hp
      have hlt := hf.above_lt_size (h.grows.above hf hold hap) hold
      exact absurd hlt (Nat.not_lt.2 (h.new a ha).1)
  exact h.nodup.imp_of_mem fun ha hb hne => ⟨hout _ ha _ hb hne, hout _ hb _ ha (Ne.symm hne)⟩

private theorem features_scan_old {planting : Planting} {inserted : List NodeId} {last : Scene MemoryPage}
    (h : Planted planting known page.document.size targets page.document last.page.document inserted)
    (hf : page.document.Forest) (hlisteners : last.page.listeners = page.listeners) (hn : n < page.document.size) :
    (client.scan last inserted).1.page.features known n = page.features known n := by
  have hbelow : ∀ e ∈ inserted, ¬ last.page.document.Above e n := by
    intro e he habove
    have hlt := hf.above_lt_size (h.grows.above hf hn habove) hn
    exact absurd hlt (Nat.not_lt.2 (h.new e he).1)
  apply MemoryPage.features_congr
  · rfl
  · rw [document_of_binds (binds_scan client last inserted)]
    exact h.preserves.bare? hn
  · intro eventType
    have hmark : (n, eventType) ∈ (client.scan last inserted).1.page.marks ↔ (n, eventType) ∈ last.page.marks :=
      mem_marks_scan_of_not_above (h.grows.forest hf) hbelow
    rw [length_listenersOf_of_binds (binds_scan client last inserted)]
    simp only [hmark, and_not_self, if_false, Nat.add_zero]
    unfold MemoryPage.listenersOf
    rw [hlisteners]

private theorem features_scan_new {inserted : List NodeId} {last : Scene MemoryPage}
    (h : Planted (client.planting page.refused kind fragment) known page.document.size targets page.document
      last.page.document inserted)
    (hf : page.document.Forest) (hs : page.Seated) (hedited : page.Edited last.page)
    (hknown : known ≤ page.document.size)
    (hroot : (client.planting page.refused kind fragment).sprout + k ∈ inserted)
    (hj : (client.planting page.refused kind fragment).source.Above
      (client.planting page.refused kind fragment).sprout j) :
    (client.scan last inserted).1.page.features known (j + k) =
      (client.planting page.refused kind fragment).features j := by
  obtain ⟨k', hek, hbase, hcopy⟩ := h.copy _ hroot
  obtain rfl := Nat.add_left_cancel hek
  have hsource := forest_planting client page.refused kind fragment
  have hsprout := h.sprout _ hroot
  have hnew := Document.le_add_of_pos hbase (hsource.pos_of_above hsprout.1 hj)
  have hunbound : ∀ eventType, (j + k, eventType) ∉ last.page.marks ∧
      (last.page.listenersOf (j + k) eventType).length = 0 := by
    intro eventType
    unfold MemoryPage.listenersOf
    rw [hedited.marks, hedited.listeners]
    exact hs.length_listenersOf hnew eventType
  have hfeatures := features_copy client (h.grows.forest hf) hsource hcopy hsprout hunbound
    (Nat.le_trans hknown hbase) (pairwise_apart h hf) hroot hj
  rw [hfeatures, hedited.refused, features_planting]

/-- A patch that something stands in the way of fails, and leaves the page as it is. -/
theorem patch_of_obstacle? {cause : PatchError} {target : NodeId} {rest : List NodeId}
    (hf : scene.page.document.Forest) (hquery : Page.query scene.page none selector = .ok (target :: rest))
    (h : MemoryPage.obstacle? scene.page.refused kind fragment = some cause) :
    (client.patch scene kind selector fragment).2 = .error cause ∧
      (client.patch scene kind selector fragment).1.page = scene.page := by
  have hattached := hf.isAttached_iff.2 (attached_of_mem_query hf hquery List.mem_cons_self)
  have herror : (client.patch scene kind selector fragment).2 = .error cause := by
    rw [snd_patch]
    exact PageBindings.patch_of_obstacle? hattached hquery h
  exact ⟨herror, page_patch_eq_of_error herror⟩

theorem mem_query (hf : scene.page.document.Forest) (hquery : Page.query scene.page none selector = .ok targets) :
    targets.Nodup ∧ ∀ t ∈ targets, t ≠ Document.root := by
  have hnodup := hf.nodup_descendants Document.root
  rw [List.nodup_cons] at hnodup
  simp only [Page.query, MemoryPage.query] at hquery
  split at hquery
  · simp at hquery
  · obtain rfl := Except.ok.inj hquery
    refine ⟨hnodup.2.filter _, fun t ht he => hnodup.1 ?_⟩
    exact he ▸ (List.mem_filter.1 ht).1

/-- A patch that nothing stands in the way of succeeds, and grafts what it puts in onto its targets. -/
theorem patch_of_clear {target : NodeId} {rest : List NodeId} (hf : scene.page.document.Forest)
    (hs : scene.page.Seated) (hkind : kind ≠ .reset)
    (hquery : Page.query scene.page none selector = .ok (target :: rest))
    (hknown : known ≤ scene.page.document.size) (ht : ∀ t ∈ target :: rest, t < known)
    (h : MemoryPage.obstacle? scene.page.refused kind fragment = none) :
    (∃ inserted, (client.patch scene kind selector fragment).2 = .ok { kind, inserted }) ∧
      (scene.page.shape known).graft ((client.planting scene.page.refused kind fragment).graft (target :: rest)) =
        [(client.patch scene kind selector fragment).1.page.shape known] ∧
      ∀ n < scene.page.document.size,
        (client.patch scene kind selector fragment).1.page.features known n = scene.page.features known n := by
  have hg : Ground known scene.page.document.size scene.page.document :=
    ⟨hf, hknown, Nat.le_refl _, fun _ hp => hf.parent_lt_size hp⟩
  obtain ⟨hnodup, hroot⟩ := mem_query hf hquery
  obtain ⟨last, inserted, htargets, hplanted⟩ := patchTargets_planted
    (suits_planting client scene.page.refused kind fragment) hkind h hg
      (fun t hmem => ⟨ht t hmem, hroot t hmem⟩) hnodup
  have hpatch : PageBindings.patch kind selector fragment scene = (last, .ok { kind, inserted }) := by
    unfold PageBindings.patch patchElements
    rw [hquery]
    dsimp only
    rw [htargets]
    rfl
  have hedited := edited_patch kind selector fragment scene
  rw [hpatch] at hedited
  have hscan : client.patch scene kind selector fragment =
      ((client.scan last inserted).1, .ok { kind, inserted }) := by
    unfold patch bindInserted
    rw [hpatch]
    dsimp only
    rw [toBind_patch hpatch]
  have hold : ∀ n < scene.page.document.size,
      (client.scan last inserted).1.page.features known n = scene.page.features known n :=
    fun n hn => features_scan_old hplanted hf hedited.listeners hn
  rw [hscan]
  refine ⟨⟨inserted, rfl⟩, ?_, hold⟩
  have hgraft := hplanted.graft ((client.scan last inserted).1.page.features known) (fun _ => rfl) fun k hk j hj => ?_
  · unfold MemoryPage.shape
    rw [document_of_binds (binds_scan client last inserted), ← hgraft]
    refine congrArg (Tree.graft _) (hf.tree_congr fun m hm => ?_)
    exact (hold m (hm.lt_size hf.root_lt_size)).symm
  · exact features_scan_new hplanted hf hs hedited hknown hk hj

end Client

end PageBindings
