import PageBindings.Proofs.Client.Change

/-!
# Which elements are bound

On a page that refuses nothing, a scan binds all that is declared at or below its roots (`bound_scan`), and adds
nothing if that is bound already (`scan_of_bound`).  If all that is declared in a document is bound
(`MemoryPage.Covers`), then it is so after every patch of the client, since what a patch attaches is at or below an
element that it has put in and that is scanned (`covers_patch`), and after everything else that the client does
(`covers_run`, `covers_complete`, `covers_swapPushed`).
-/

namespace PageBindings

open Relation (ReflTransGen)

variable {client : Client MemoryPage} {page page' : MemoryPage} {scene : Scene MemoryPage} {node : NodeId}

/-! ### Bound elements -/

namespace MemoryPage

variable {names : Vocabulary}

/-- All that an element declares is bound. -/
def Bound (page : MemoryPage) (names : Vocabulary) (node : NodeId) : Prop :=
  ∀ bindings, page.declared? names node = some (.ok bindings) →
    ∀ event ∈ bindings.events, (node, event.1) ∈ page.marks

/-- All that is declared in the document is bound, and nothing stands in the way of keeping it so. -/
structure Covers (page : MemoryPage) (names : Vocabulary) : Prop where
  nameChars : ∀ c ∈ names.events.toList, Selector.isNameChar c = true
  forest : page.document.Forest
  refused : page.refused = []
  bound : ∀ node, page.document.Above Document.root node → page.Bound names node

theorem Bound.of_keeps (h : page.Bound names node) (hk : page.document.Keeps page'.document)
    (hn : node < page.document.size) (hm : page.marks ⊆ page'.marks) : page'.Bound names node := by
  intro bindings hb event hevent
  rw [declared?_of_keeps hk hn] at hb
  exact hm (h bindings hb event hevent)

theorem declared?_of_binds (h : ReflTransGen client.Binds page page') (node : NodeId) :
    page'.declared? names node = page.declared? names node := by
  unfold declared? Page.view?
  simp only [Page.attribute?, Client.document_of_binds h]

theorem Bound.of_binds (h : page.Bound names node) (hb : ReflTransGen client.Binds page page') :
    page'.Bound names node := by
  intro bindings hdeclared event hevent
  rw [declared?_of_binds hb] at hdeclared
  exact Client.marks_subset_of_binds hb (h bindings hdeclared event hevent)

/-- Only the document, the marks and what is refused matter. -/
theorem Covers.congr (h : page.Covers names) (hdocument : page'.document = page.document)
    (hrefused : page'.refused = page.refused) (hmarks : page'.marks = page.marks) : page'.Covers names := by
  have hkeeps : page.document.Keeps page'.document := hdocument ▸ Document.Keeps.refl _
  refine ⟨h.nameChars, hdocument ▸ h.forest, hrefused.trans h.refused, fun node hn => ?_⟩
  rw [hdocument] at hn
  exact (h.bound node hn).of_keeps hkeeps (hn.lt_size h.forest.root_lt_size) (hmarks ▸ List.Subset.refl _)

theorem Covers.binds (h : page.Covers names) (hb : ReflTransGen client.Binds page page') : page'.Covers names := by
  have hdocument := Client.document_of_binds hb
  refine ⟨h.nameChars, by rw [hdocument]; exact h.forest, by rw [Client.refused_of_binds hb]; exact h.refused, ?_⟩
  intro node hn
  rw [hdocument] at hn
  exact (h.bound node hn).of_binds hb

/-- An edit that attaches nothing. -/
theorem Covers.edit (h : page.Covers names) {document : Document} (hg : page.document.Grows document)
    (ha : ∀ node, document.Above Document.root node → page.document.Above Document.root node)
    (handedOut : List NodeId) : { page with document, handedOut : MemoryPage }.Covers names := by
  refine ⟨h.nameChars, hg.forest h.forest, h.refused, fun node hn => ?_⟩
  have hold := ha node hn
  exact (h.bound node hold).of_keeps hg.toKeeps (hold.lt_size h.forest.root_lt_size) (List.Subset.refl _)

end MemoryPage

namespace Client

/-- Marks stay, and an event type of an element is marked once it was bound. -/
private theorem marks_bindEvent (client : Client MemoryPage) (node : NodeId) (view : Option View)
    (scene : Scene MemoryPage) (event : String × List Action) :
    scene.page.marks ⊆ (client.bindEvent node view scene event).1.page.marks ∧
      (client.bindEvent node view scene event).1.page.refused = scene.page.refused ∧
      (MemoryPage.Capability.listener ∉ scene.page.refused →
        (node, event.1) ∈ (client.bindEvent node view scene event).1.page.marks) := by
  rcases bindEvent_cases client node view scene event.1 event.2 with ⟨hwhy, hpage, -⟩ | ⟨-, hpage, -⟩
  · rw [hpage]
    refine ⟨fun _ h => h, rfl, fun allowed => ?_⟩
    exact hwhy.resolve_right allowed
  · rw [hpage]
    exact ⟨List.subset_cons_self _ _, rfl, fun _ => List.mem_cons_self⟩

private theorem marks_bindEvents {view : Option View} {events : List (String × List Action)}
    (allowed : MemoryPage.Capability.listener ∉ scene.page.refused) :
    scene.page.marks ⊆ (client.bindEvents node view scene events).1.page.marks ∧
      ∀ event ∈ events, (node, event.1) ∈ (client.bindEvents node view scene events).1.page.marks := by
  rw [bindEvents_eq]
  induction events generalizing scene with
  | nil => exact ⟨fun _ h => h, by simp⟩
  | cons event rest ih =>
    obtain ⟨hsub, hrefused, hmark⟩ := marks_bindEvent client node view scene event
    obtain ⟨hrest, hmarks⟩ := ih (by rwa [hrefused])
    refine ⟨List.Subset.trans hsub hrest, fun other hother => ?_⟩
    rcases List.mem_cons.1 hother with rfl | hother
    · exact hrest (hmark allowed)
    · exact hmarks other hother

theorem bound_bind (allowed : MemoryPage.Capability.listener ∉ scene.page.refused) (node : NodeId) :
    (client.bind scene node).1.page.Bound client.settings.vocabulary node := by
  intro bindings hdeclared event hevent
  rw [MemoryPage.declared?_of_binds (binds_bind client scene node)] at hdeclared
  rw [bind_eq, hdeclared]
  exact (marks_bindEvents allowed).2 event hevent

theorem page_bindReporting (client : Client MemoryPage) (scene : Scene MemoryPage) (node : NodeId) :
    (client.bindReporting scene node).1.page = (client.bind scene node).1.page := by
  unfold bindReporting
  split
  · rename_i heq
    rw [heq]
  · rename_i heq
    rw [heq]
    rfl

/-! ### Scans -/

private theorem bound_foldl {found : List NodeId} (allowed : MemoryPage.Capability.listener ∉ scene.page.refused)
    (hn : node ∈ found) :
    (found.foldl (fun scene node => (client.bindReporting scene node).1) scene).page.Bound
      client.settings.vocabulary node := by
  induction found generalizing scene with
  | nil => simp at hn
  | cons first rest ih =>
    have hone := binds_bindReporting client scene first
    rcases List.mem_cons.1 hn with rfl | hn
    · have hbound : (client.bindReporting scene node).1.page.Bound client.settings.vocabulary node := by
        rw [page_bindReporting]
        exact bound_bind allowed node
      exact hbound.of_binds (reflTransGen_foldl (fun scene node _ => binds_bindReporting client scene node) _)
    · exact ih (by rwa [refused_of_binds hone]) hn

/-- A scan binds all that is declared at or below its roots. -/
theorem bound_scan {roots : List NodeId} {root : NodeId} (hf : scene.page.document.Forest)
    (hnames : ∀ c ∈ client.settings.vocabulary.events.toList, Selector.isNameChar c = true)
    (allowed : MemoryPage.Capability.listener ∉ scene.page.refused) (hroot : root ∈ roots)
    (hn : scene.page.document.Above root node) :
    (client.scan scene roots).1.page.Bound client.settings.vocabulary node := by
  cases hd : scene.page.declared? client.settings.vocabulary node with
  | none =>
    intro bindings hb
    rw [MemoryPage.declared?_of_binds (binds_scan client scene roots), hd] at hb
    simp at hb
  | some result =>
    obtain ⟨text, htext, -⟩ := Option.map_eq_some_iff.1 hd
    have htext : scene.page.document.attribute? node client.settings.vocabulary.events = some text := htext
    rw [scan_eq]
    refine bound_foldl (by rwa [page_declaringElements]) ?_
    exact (mem_declaringElements_iff hf hnames).2 ⟨by rw [htext]; rfl, root, hroot, hn⟩

/-- What adds nothing one by one adds nothing at all. -/
private theorem foldl_added_of_zero {α : Type} {f : Scene MemoryPage → α → Scene MemoryPage × Nat} {xs : List α}
    (h : ∀ scene, scene.page = page → ∀ x ∈ xs, (f scene x).1.page = page ∧ (f scene x).2 = 0)
    (hscene : scene.page = page) (added : Nat) :
    (xs.foldl (fun (scene, added) x =>
      let (scene, more) := f scene x
      (scene, added + more)) (scene, added)).1.page = page ∧
    (xs.foldl (fun (scene, added) x =>
      let (scene, more) := f scene x
      (scene, added + more)) (scene, added)).2 = added := by
  induction xs generalizing scene added with
  | nil => exact ⟨hscene, rfl⟩
  | cons x rest ih =>
    obtain ⟨hpage, hzero⟩ := h scene hscene x List.mem_cons_self
    have hrest := ih (fun scene hs y hy => h scene hs y (List.mem_cons_of_mem x hy)) hpage (added + (f scene x).2)
    rw [hzero] at hrest
    rw [List.foldl_cons]
    dsimp only
    rw [hzero]
    exact hrest

private theorem bindReporting_of_bound (h : scene.page.Bound client.settings.vocabulary node) :
    (client.bindReporting scene node).1.page = scene.page ∧ (client.bindReporting scene node).2 = 0 := by
  unfold bindReporting
  rw [bind_eq]
  cases hd : scene.page.declared? client.settings.vocabulary node with
  | none => exact ⟨rfl, rfl⟩
  | some result =>
    cases result with
    | error cause => exact ⟨rfl, rfl⟩
    | ok bindings =>
      refine foldl_added_of_zero (f := client.bindEvent node _) (fun start hstart event hevent => ?_) rfl 0
      have hmark := h bindings hd event hevent
      rw [← hstart] at hmark
      rcases bindEvent_cases client node _ start event.1 event.2 with ⟨-, hpage, hzero⟩ | ⟨hwhy, -, -⟩
      · exact ⟨hpage.trans hstart, hzero⟩
      · exact absurd hmark hwhy.1

/-- A scan adds nothing if all that is declared at or below its roots is bound. -/
theorem scan_of_bound {roots : List NodeId} (hf : scene.page.document.Forest)
    (hnames : ∀ c ∈ client.settings.vocabulary.events.toList, Selector.isNameChar c = true)
    (h : ∀ root ∈ roots, ∀ node, scene.page.document.Above root node →
      scene.page.Bound client.settings.vocabulary node) :
    (client.scan scene roots).1.page = scene.page ∧ (client.scan scene roots).2 = 0 := by
  have hstart := page_declaringElements client.settings.vocabulary.events scene roots
  refine foldl_added_of_zero (f := client.bindReporting) (fun start hstart node hn => ?_) hstart 0
  obtain ⟨-, root, hroot, habove⟩ := (mem_declaringElements_iff hf hnames).1 hn
  have hbound := h root hroot node habove
  rw [← hstart] at hbound ⊢
  exact bindReporting_of_bound hbound

/-! ### Patches -/

/-- Nothing is attached that is not bound: neither what was there nor what is scanned. -/
private theorem covers_insert (h : page.Covers client.settings.vocabulary)
    (hg : page.document.Grows scene.page.document) (hrefused : scene.page.refused = page.refused)
    (hmarks : scene.page.marks = page.marks) {roots : List NodeId}
    (ha : ∀ node, scene.page.document.Above Document.root node →
      page.document.Above Document.root node ∨ ∃ root ∈ roots, scene.page.document.Above root node) :
    (client.scan scene roots).1.page.Covers client.settings.vocabulary := by
  have hb := binds_scan client scene roots
  have hf := hg.forest h.forest
  have hrefused : scene.page.refused = [] := hrefused.trans h.refused
  refine ⟨h.nameChars, by rwa [document_of_binds hb], by rwa [refused_of_binds hb], fun node hn => ?_⟩
  rw [document_of_binds hb] at hn
  rcases ha node hn with hold | ⟨root, hroot, hnew⟩
  · -- a node that was attached is old, so that it declares what it did and has the marks that it had
    have hkept := (h.bound node hold).of_keeps hg.toKeeps (hold.lt_size h.forest.root_lt_size)
      (hmarks ▸ List.Subset.refl _)
    exact hkept.of_binds hb
  · exact bound_scan hf h.nameChars (by simp [hrefused]) hroot hnew

theorem covers_patch (h : scene.page.Covers client.settings.vocabulary) (kind : PatchKind) (selector : String)
    (fragment : Option String) :
    (client.patch scene kind selector fragment).1.page.Covers client.settings.vocabulary := by
  have hedited := edited_patch kind selector fragment scene
  unfold patch
  split
  · rename_i next cause heq
    rw [page_patch_of_error heq]
    exact h
  · rename_i next outcome heq
    rw [heq] at hedited
    refine covers_insert h hedited.grows hedited.refused hedited.marks fun node hn => ?_
    rw [toBind_patch heq]
    exact attached_patch heq h.forest hn

theorem covers_patchReporting (h : scene.page.Covers client.settings.vocabulary) (kind : PatchKind)
    (selector : String) (fragment : Option String) :
    (client.patchReporting scene kind selector fragment).page.Covers client.settings.vocabulary := by
  rw [page_patchReporting]
  exact covers_patch h kind selector fragment

/-! ### Actions -/

theorem covers_runAction (h : scene.page.Covers client.settings.vocabulary) (node : Option NodeId)
    (eventType : String) (view : Option View) (action : Action) :
    (client.runAction node eventType view scene action).page.Covers client.settings.vocabulary := by
  unfold runAction
  split
  · exact h
  · split
    · exact covers_patchReporting h _ _ _
    · unfold request
      split
      · exact h
      · dsimp only
        split
        · rename_i hsend
          obtain ⟨-, rfl⟩ := MemoryPage.send_eq_ok hsend
          exact h.congr rfl rfl rfl
        · exact h

theorem covers_run (h : scene.page.Covers client.settings.vocabulary) (node : Option NodeId) (eventType : String)
    (view : Option View) (actions : List Action) :
    (client.run node eventType view scene actions).page.Covers client.settings.vocabulary := by
  unfold run
  induction actions generalizing scene with
  | nil => exact h
  | cons action rest ih => exact ih (covers_runAction h node eventType view action)

theorem covers_complete (h : scene.page.Covers client.settings.vocabulary) (errand : Errand) (outcome : Outcome) :
    (client.complete scene errand outcome).page.Covers client.settings.vocabulary := by
  unfold complete
  split
  · exact h
  · split
    · exact covers_patchReporting h _ _ _
    · exact h

theorem covers_swapPushed (h : scene.page.Covers client.settings.vocabulary) (html : String) :
    (client.swapPushed scene html).1.page.Covers client.settings.vocabulary := by
  have hread := h.edit (Document.grows_read _ html) fun node => Document.attached_read h.forest
  rcases swapPushed_cases client scene html with
    ⟨cause, -, hpage | ⟨handedOut, hpage⟩⟩ | ⟨e, he, target, document, handedOut, next, ht, hput, hnext, heq⟩
  · rw [hpage]
    exact h
  · rw [hpage]
    exact hread handedOut
  · have hgrows := Document.grows_put? rfl he hput ht
    rw [heq]
    refine covers_insert h (by rwa [hnext]) (by rw [hnext]) (by rw [hnext]) fun node hn => ?_
    rw [hnext] at hn ⊢
    rcases Document.attached_put? rfl he hput h.forest hn with hold | hnew
    · exact .inl hold
    · exact .inr ⟨e, List.mem_singleton_self e, hnew⟩

end Client

end PageBindings
