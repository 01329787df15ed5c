import PageBindings.Proofs.Client.Grafting
import PageBindings.Proofs.Client.Scanning
import PageBindings.Proofs.Patch.Remaking

/-!
# Binding what is new and nothing else

A scan of some elements leaves all nodes alone that are neither among them nor below them (`scan_of_not_above`).  An
element that had no listener gets one for each event type that it declares and no other (`Client.Serves`,
`serves_scan`).  So after an edit that has made new elements, a scan of these binds them and what is below them, and
nothing else on the page (`Client.Rebound`, `rebound_scan`).  A patch of a client is such an edit and such a scan,
whether or not it succeeds (`rebound_patch`).
-/

namespace PageBindings.Client

variable {client : Client MemoryPage} {page page' : MemoryPage} {scene : Scene MemoryPage} {n root : NodeId}
  {roots : List NodeId} {eventType : String}

/-! ### Outside and inside -/

theorem scan_of_not_above (hf : scene.page.document.Forest)
    (hn : ∀ root ∈ roots, ¬ scene.page.document.Above root n) (eventType : String) :
    ((n, eventType) ∈ (client.scan scene roots).1.page.marks ↔ (n, eventType) ∈ scene.page.marks) ∧
      (client.scan scene roots).1.page.listenersOf n eventType = scene.page.listenersOf n eventType := by
  have hmarks : (n, eventType) ∈ (client.scan scene roots).1.page.marks ↔ (n, eventType) ∈ scene.page.marks :=
    mem_marks_scan_of_not_above hf hn
  exact ⟨hmarks, listenersOf_of_binds (binds_scan client scene roots) hmarks.1⟩

theorem page_scan_of_refused (h : MemoryPage.Capability.listener ∈ scene.page.refused) (roots : List NodeId) :
    (client.scan scene roots).1.page = scene.page :=
  eq_of_binds_of_refused (binds_scan client scene roots) h

/--
An element has exactly one listener, which belongs to the client, for each event type that it declares, and no other.
If its declaration cannot be read, or there is none, it has no listener at all.
-/
structure Serves (client : Client MemoryPage) (page : MemoryPage) (n : NodeId) : Prop where
  declared {text : String} {selfTarget : Option String} {bindings : Bindings}
    (written : page.document.attribute? n client.settings.vocabulary.events = some text)
    (read : Bindings.parse text selfTarget = .ok bindings) {eventType : String}
    (mem : eventType ∈ bindings.events.map Prod.fst) :
    ∃ listener, page.listenersOf n eventType = [listener] ∧ client.Declares page listener
  other {eventType : String} (h : ∀ text selfTarget bindings,
    page.document.attribute? n client.settings.vocabulary.events = some text →
      Bindings.parse text selfTarget = .ok bindings → eventType ∉ bindings.events.map Prod.fst) :
    page.listenersOf n eventType = []

/-- An element without marks and listeners is served by a scan of it or of an element above it. -/
theorem serves_scan (hf : scene.page.document.Forest)
    (hnames : ∀ c ∈ client.settings.vocabulary.events.toList, Selector.isNameChar c = true)
    (allowed : MemoryPage.Capability.listener ∉ scene.page.refused) (hroot : root ∈ roots)
    (hn : scene.page.document.Above root n)
    (hunbound : ∀ eventType, (n, eventType) ∉ scene.page.marks ∧ scene.page.listenersOf n eventType = []) :
    client.Serves (client.scan scene roots).1.page n := by
  have hb := binds_scan client scene roots
  have hmarks : ∀ eventType, (n, eventType) ∈ (client.scan scene roots).1.page.marks ↔
      scene.page.Announces client.settings.vocabulary n eventType := by
    intro eventType
    rw [mem_marks_scan, mem_declaringElements_iff hf hnames]
    constructor
    · rintro (hold | ⟨-, -, hannounces⟩)
      · exact absurd hold (hunbound eventType).1
      · exact hannounces
    · intro hannounces
      exact .inr ⟨allowed, ⟨hannounces.hasAttribute, root, hroot, hn⟩, hannounces⟩
  constructor
  · intro text selfTarget bindings written read eventType mem
    -- the client reads the declaration for the view of the element
    obtain ⟨own, hown, hkeys⟩ := Bindings.exists_parse read
      ((Page.view? scene.page client.settings.vocabulary n).map (View.selector client.settings.vocabulary))
    rw [document_of_binds hb] at written
    have hannounces : scene.page.Announces client.settings.vocabulary n eventType := by
      refine ⟨own, ?_, hkeys.symm ▸ mem⟩
      rw [← hown]
      exact congrArg (Option.map _) written
    obtain ⟨listener, hlistener, hdeclares⟩ :=
      exists_listenersOf_of_binds hb (hunbound eventType).1 ((hmarks eventType).2 hannounces)
    rw [(hunbound eventType).2, List.nil_append] at hlistener
    exact ⟨listener, hlistener, hdeclares⟩
  · intro eventType h
    rw [listenersOf_of_binds hb, (hunbound eventType).2]
    intro hmark
    obtain ⟨bindings, hdeclared, hmem⟩ := (hmarks eventType).1 hmark
    obtain ⟨text, htext, hparse⟩ := Option.map_eq_some_iff.1 hdeclared
    rw [document_of_binds hb] at h
    exact absurd hmem (h text _ bindings htext hparse)

/-! ### New elements -/

/-- Marks and listeners after elements were made and bound: those of the new elements, and of no other node. -/
structure Rebound (client : Client MemoryPage) (page page' : MemoryPage) (made : List NodeId) : Prop where
  new {e n : NodeId} (he : e ∈ made) (hn : page'.document.Above e n) : page.document.size ≤ n
  outside {n : NodeId} (hn : ∀ e ∈ made, ¬ page'.document.Above e n) (eventType : String) :
    ((n, eventType) ∈ page'.marks ↔ (n, eventType) ∈ page.marks) ∧
      page'.listenersOf n eventType = page.listenersOf n eventType
  inside (allowed : MemoryPage.Capability.listener ∉ page.refused) {e n : NodeId} (he : e ∈ made)
    (hn : page'.document.Above e n) : client.Serves page' n
  denied (refused : MemoryPage.Capability.listener ∈ page.refused) :
    page'.marks = page.marks ∧ page'.listeners = page.listeners

theorem rebound_nil (client : Client MemoryPage) (hmarks : page'.marks = page.marks)
    (hlisteners : page'.listeners = page.listeners) : client.Rebound page page' [] where
  new he := absurd he List.not_mem_nil
  outside _ eventType := by
    unfold MemoryPage.listenersOf
    rw [hmarks, hlisteners]
    exact ⟨Iff.rfl, rfl⟩
  inside _ _ _ he := absurd he List.not_mem_nil
  denied _ := ⟨hmarks, hlisteners⟩

/-- After an edit a scan of elements that are new with all below them binds them alone. -/
theorem rebound_scan (hf : scene.page.document.Forest) (hs : page.Seated) (hedited : page.Edited scene.page)
    (hnames : ∀ c ∈ client.settings.vocabulary.events.toList, Selector.isNameChar c = true)
    (hnew : ∀ e ∈ roots, ∀ n, scene.page.document.Above e n → page.document.size ≤ n) :
    client.Rebound page (client.scan scene roots).1.page roots := by
  have hdocument := document_of_binds (binds_scan client scene roots)
  have hlisteners : ∀ n eventType, scene.page.listenersOf n eventType = page.listenersOf n eventType := by
    intro n eventType
    unfold MemoryPage.listenersOf
    rw [hedited.listeners]
  refine ⟨fun he hn => hnew _ he _ (hdocument ▸ hn), fun hn eventType => ?_, fun allowed e n he hn => ?_,
    fun refused => ?_⟩
  · rw [hdocument] at hn
    rw [← hlisteners, ← hedited.marks]
    exact scan_of_not_above hf hn eventType
  · rw [hdocument] at hn
    refine serves_scan hf hnames (hedited.refused ▸ allowed) he hn fun eventType => ?_
    obtain ⟨hmark, hlength⟩ := hs.length_listenersOf (hnew e he n hn) eventType
    rw [hlisteners, hedited.marks]
    exact ⟨hmark, List.length_eq_zero_iff.1 hlength⟩
  · rw [page_scan_of_refused (hedited.refused ▸ refused)]
    exact ⟨hedited.marks, hedited.listeners⟩

/-! ### Patches -/

/-- The elements that a patch reports as put in; one that fails reports none. -/
def made : Except PatchError PatchOutcome → List NodeId
  | .ok outcome => outcome.inserted
  | .error _ => []

variable {kind : PatchKind} {selector : String} {fragment : Option String}

private theorem size_le_of_above_inserted (client : Client MemoryPage) {last : Scene MemoryPage}
    {outcome : PatchOutcome} (hf : scene.page.document.Forest)
    (h : PageBindings.patch kind selector fragment scene = (last, .ok outcome)) {e : NodeId}
    (he : e ∈ outcome.inserted) (hn : last.page.document.Above e n) : scene.page.document.size ≤ n := by
  obtain ⟨conditions, targets, -, hlists, hobstacle, hpatched⟩ := exists_targets_of_ok hf h
  have hkind : kind ≠ .reset := by
    rintro rfl
    have hnothing := toBind_patch h
    rw [← hnothing] at he
    unfold PatchOutcome.toBind at he
    simp [PatchKind.bindsAfterwards, PatchKind.creates, (patch_eq_ok h).1] at he
  have hg : Ground scene.page.document.size scene.page.document.size scene.page.document :=
    ⟨hf, Nat.le_refl _, Nat.le_refl _, fun _ hp => hf.parent_lt_size hp⟩
  have htargets : ∀ t ∈ targets, t < scene.page.document.size ∧ t ≠ Document.root := by
    intro t ht
    obtain ⟨hroot, hattached, -⟩ := (hlists.mem_iff t).1 ht
    exact ⟨(hf.isAttached_iff.1 hattached).lt_size hf.root_lt_size, hroot⟩
  obtain ⟨final, inserted, hall, hplanted⟩ := patchTargets_planted
    (suits_planting client scene.page.refused kind fragment) hkind hobstacle hg htargets hlists.nodup
  unfold patchElements at hpatched
  rw [hall] at hpatched
  simp only [Except.map, Prod.mk.injEq, Except.ok.injEq] at hpatched
  obtain ⟨rfl, rfl⟩ := hpatched
  obtain ⟨k, rfl, hbase, hcopy⟩ := hplanted.copy e he
  obtain ⟨hpos, hlt⟩ := hplanted.sprout _ he
  have hsource := forest_planting client scene.page.refused kind fragment
  obtain ⟨j, hj, rfl⟩ := (hcopy.above_iff hsource (hplanted.grows.forest hf) hpos hlt).1 hn
  exact Document.le_add_of_pos hbase (hsource.pos_of_above hpos hj)

/-- A patch of a client binds what it has put in and nothing else, and a patch that fails binds nothing. -/
theorem rebound_patch (hf : scene.page.document.Forest) (hs : scene.page.Seated)
    (hnames : ∀ c ∈ client.settings.vocabulary.events.toList, Selector.isNameChar c = true) (kind : PatchKind)
    (selector : String) (fragment : Option String) :
    client.Rebound scene.page (client.patch scene kind selector fragment).1.page
      (made (client.patch scene kind selector fragment).2) := by
  have hedited := edited_patch kind selector fragment scene
  unfold patch
  cases hpatch : PageBindings.patch kind selector fragment scene with
  | mk last result =>
    rw [hpatch] at hedited
    cases result with
    | error cause => exact rebound_nil client hedited.marks hedited.listeners
    | ok outcome =>
      dsimp only [made, bindInserted]
      rw [toBind_patch hpatch]
      refine rebound_scan (hedited.grows.forest hf) hs hedited hnames fun e he n hn => ?_
      exact size_le_of_above_inserted client hf hpatch he hn

theorem patch_of_local (hf : scene.page.document.Forest) (hk : kind.creates = false) (selector : String)
    (fragment : Option String) :
    (client.patch scene kind selector fragment).1.page.marks = scene.page.marks ∧
      (client.patch scene kind selector fragment).1.page.listeners = scene.page.listeners := by
  have hedited := edited_patch kind selector fragment scene
  unfold patch
  cases hpatch : PageBindings.patch kind selector fragment scene with
  | mk last result =>
    rw [hpatch] at hedited
    cases result with
    | error cause => exact ⟨hedited.marks, hedited.listeners⟩
    | ok outcome =>
      have hnothing : outcome.toBind = [] := by
        unfold PatchOutcome.toBind PatchKind.bindsAfterwards
        rw [(patch_eq_ok hpatch).1, hk]
        rfl
      have hpage : (client.scan last []).1.page = last.page := by
        refine eq_of_binds_of_marks (binds_scan client last []) fun mark hmark => ?_
        exact (mem_marks_scan_of_not_above (hedited.grows.forest hf) fun _ hmem =>
          absurd hmem List.not_mem_nil).1 hmark
      dsimp only [bindInserted]
      rw [hnothing, hpage]
      exact ⟨hedited.marks, hedited.listeners⟩

end PageBindings.Client
