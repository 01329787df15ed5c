import PageBindings.Client.Actions
import PageBindings.Proofs.Binding.Declaration
import PageBindings.Proofs.Binding.Discovery
import PageBindings.Proofs.Patch.Basic

/-!
# What a client does to a page

Whatever a client does to a page is a sequence of changes of three kinds (`Client.Change`): it edits the document, it
adds the mark and the listener of an event type that an element declares and that is not bound yet (`Client.Binds`),
or it sends a request.  A scan only binds (`binds_scan`), and whatever does not send edits the document first and then
binds (`Client.Updates`).  All that a client ever does comes down to `changes_patch`, `changes_run`,
`changes_complete` and `changes_swapPushed`.
-/

namespace PageBindings

/-! ### What elements declare -/

namespace MemoryPage

/-- What an element declares, if anything. -/
def declared? (page : MemoryPage) (names : Vocabulary) (node : NodeId) : Option (Except BindingError Bindings) :=
  (Page.attribute? page node names.events).map fun text =>
    Bindings.parse text ((Page.view? page names node).map (View.selector names))

variable {page page' : MemoryPage} {names : Vocabulary} {node : NodeId}

theorem view?_of_keeps (h : page.document.Keeps page'.document) (hn : node < page.document.size) :
    Page.view? page' names node = Page.view? page names node := by
  unfold Page.view?
  simp only [Page.attribute?, h.attribute? hn]

theorem declared?_of_keeps (h : page.document.Keeps page'.document) (hn : node < page.document.size) :
    page'.declared? names node = page.declared? names node := by
  unfold declared?
  simp only [view?_of_keeps h hn, Page.attribute?, h.attribute? hn]

theorem lt_size_of_declared? {result : Except BindingError Bindings} (h : page.declared? names node = some result) :
    node < page.document.size := by
  obtain ⟨text, htext, -⟩ := Option.map_eq_some_iff.1 h
  exact Document.lt_size_of_attribute? htext

/-! ### What the page keeps for a client -/

theorem send_eq_ok {request : Request} {errand : Errand} (h : page.send request errand = .ok page') :
    Capability.send ∉ page.refused ∧
      page' = { page with exchanges := page.exchanges ++ [{ request, errand := some errand }] } := by
  obtain ⟨allowed, h⟩ := allow_eq_ok_iff.1 h
  exact ⟨allowed, (Except.ok.inj h).symm⟩

theorem subscribe_eq_ok {url : String} {owner : ClientRef} {stream : StreamRef}
    (h : page.subscribe url owner = .ok (stream, page')) :
    stream = page.streams.length ∧ page' = { page with streams := page.streams ++ [{ url, owner }] } := by
  obtain ⟨-, h⟩ := allow_eq_ok_iff.1 h
  obtain ⟨hstream, hpage⟩ := Prod.mk.inj (Except.ok.inj h)
  exact ⟨hstream.symm, hpage.symm⟩

end MemoryPage

namespace Client

open Relation (ReflTransGen)

variable {client : Client MemoryPage} {page page' : MemoryPage} {scene : Scene MemoryPage} {node : NodeId}

/-! ### Declarations -/

/-- The listener is one of the client, for what its element declares. -/
structure Declares (client : Client MemoryPage) (page : MemoryPage) (listener : Listener) : Prop where
  owner : listener.client = client.ref
  view : listener.view = Page.view? page client.settings.vocabulary listener.node
  actions : ∃ bindings, page.declared? client.settings.vocabulary listener.node = some (.ok bindings) ∧
    bindings.actions? listener.eventType = some listener.actions

theorem Declares.of_keeps {listener : Listener} (h : client.Declares page listener)
    (hk : page.document.Keeps page'.document) : client.Declares page' listener := by
  obtain ⟨bindings, hb, ha⟩ := h.actions
  have hn := MemoryPage.lt_size_of_declared? hb
  refine ⟨h.owner, ?_, bindings, ?_, ha⟩
  · rw [h.view, MemoryPage.view?_of_keeps hk hn]
  · rw [MemoryPage.declared?_of_keeps hk hn, hb]

/-- A listener for an event type that the element declares, with the actions declared for it. -/
theorem declares_of_mem {bindings : Bindings} {event : String × List Action}
    (h : page.declared? client.settings.vocabulary node = some (.ok bindings)) (hevent : event ∈ bindings.events) :
    client.Declares page
      { node, eventType := event.1, client := client.ref, view := Page.view? page client.settings.vocabulary node
        actions := event.2 } := by
  refine ⟨rfl, rfl, bindings, h, ?_⟩
  obtain ⟨text, -, hparse⟩ := Option.map_eq_some_iff.1 h
  exact Bindings.actions?_of_mem hparse hevent

/-! ### Changes -/

/-- The client binds one event type of an element. -/
inductive Binds (client : Client MemoryPage) (page : MemoryPage) : MemoryPage → Prop
  | intro {listener : Listener} (allowed : MemoryPage.Capability.listener ∉ page.refused)
      (fresh : (listener.node, listener.eventType) ∉ page.marks) (declares : client.Declares page listener) :
      Binds client page { page with
        marks := (listener.node, listener.eventType) :: page.marks, listeners := page.listeners ++ [listener] }

/-- The client does one thing to the page. -/
inductive Change (client : Client MemoryPage) (page : MemoryPage) : MemoryPage → Prop
  | edit {document : Document} (grows : page.document.Grows document) (handedOut : List NodeId) :
      Change client page { page with document, handedOut }
  | bind {bound : MemoryPage} (binds : client.Binds page bound) : Change client page bound
  | send (allowed : MemoryPage.Capability.send ∉ page.refused) (path : String) (parameters : List Json)
      (kind : PatchKind) (target : String) :
      Change client page { page with exchanges := page.exchanges ++
        [{ request := Request.forEndpoint client.settings client.id path parameters,
           errand := some { client := client.ref, kind, target } }] }

theorem changes_of_binds (h : ReflTransGen client.Binds page page') : ReflTransGen client.Change page page' :=
  Relation.ReflTransGen.mono (fun _ _ => Change.bind) _ _ h

theorem changes_of_edited (client : Client MemoryPage) (h : page.Edited page') :
    ReflTransGen client.Change page page' := by
  obtain ⟨document, handedOut, grows, rfl⟩ := h
  exact .single (.edit grows handedOut)

/-! ### Binding -/

/--
Binding an event type leaves the page as it is if the type is bound already or the page refuses listeners, and adds
the mark and the listener otherwise.
-/
theorem bindEvent_cases (client : Client MemoryPage) (node : NodeId) (view : Option View) (scene : Scene MemoryPage)
    (eventType : String) (actions : List Action) :
    (((node, eventType) ∈ scene.page.marks ∨ MemoryPage.Capability.listener ∈ scene.page.refused) ∧
      (client.bindEvent node view scene (eventType, actions)).1.page = scene.page ∧
      (client.bindEvent node view scene (eventType, actions)).2 = 0) ∨
    (((node, eventType) ∉ scene.page.marks ∧ MemoryPage.Capability.listener ∉ scene.page.refused) ∧
      (client.bindEvent node view scene (eventType, actions)).1.page = { scene.page with
        marks := (node, eventType) :: scene.page.marks
        listeners := scene.page.listeners ++ [{ node, eventType, client := client.ref, view, actions }] } ∧
      (client.bindEvent node view scene (eventType, actions)).2 = 1) := by
  by_cases hmark : (node, eventType) ∈ scene.page.marks
  · left
    refine ⟨.inl hmark, ?_⟩
    simp [bindEvent, Scene.claim, Page.claim, MemoryPage.claim, hmark]
  · by_cases hrefused : MemoryPage.Capability.listener ∈ scene.page.refused
    · left
      refine ⟨.inr hrefused, ?_⟩
      -- the mark that is taken off is the one that was just put on
      have hfilter : scene.page.marks.filter (· != (node, eventType)) = scene.page.marks := by
        rw [List.filter_eq_self]
        intro mark hmem
        have hne : mark ≠ (node, eventType) := fun he => hmark (he ▸ hmem)
        simpa using hne
      simp [bindEvent, Scene.claim, Page.claim, MemoryPage.claim, Page.listen, MemoryPage.listen, MemoryPage.allow,
        Scene.release, Page.release, MemoryPage.release, hmark, hrefused, hfilter]
    · right
      refine ⟨⟨hmark, hrefused⟩, ?_⟩
      simp [bindEvent, Scene.claim, Page.claim, MemoryPage.claim, Page.listen, MemoryPage.listen, MemoryPage.allow,
        Scene.noteAll, hmark, hrefused]

/-- Adding up what is bound does not matter for what is bound. -/
theorem fst_foldl_added {α : Type} (f : Scene MemoryPage → α → Scene MemoryPage × Nat) (xs : List α)
    (scene : Scene MemoryPage) (added : Nat) :
    (xs.foldl (fun (scene, added) x =>
      let (scene, more) := f scene x
      (scene, added + more)) (scene, added)).1 = xs.foldl (fun scene x => (f scene x).1) scene := by
  induction xs generalizing scene added with
  | nil => rfl
  | cons x rest ih => exact ih (f scene x).1 (added + (f scene x).2)

theorem bindEvents_eq (client : Client MemoryPage) (node : NodeId) (view : Option View) (scene : Scene MemoryPage)
    (events : List (String × List Action)) : (client.bindEvents node view scene events).1 =
      events.foldl (fun scene event => (client.bindEvent node view scene event).1) scene :=
  fst_foldl_added (client.bindEvent node view) events scene 0

theorem scan_eq (client : Client MemoryPage) (scene : Scene MemoryPage) (roots : List NodeId) :
    (client.scan scene roots).1 =
      (declaringElements client.settings.vocabulary.events scene roots).2.foldl
        (fun scene node => (client.bindReporting scene node).1)
        (declaringElements client.settings.vocabulary.events scene roots).1 :=
  fst_foldl_added client.bindReporting _ _ 0

/-- A sequence of steps that each change the page in some way does so, too. -/
theorem reflTransGen_foldl {α : Type} {r : MemoryPage → MemoryPage → Prop}
    {f : Scene MemoryPage → α → Scene MemoryPage}
    {xs : List α} (hf : ∀ scene, ∀ x ∈ xs, ReflTransGen r scene.page (f scene x).page) (scene : Scene MemoryPage) :
    ReflTransGen r scene.page (xs.foldl f scene).page := by
  induction xs generalizing scene with
  | nil => exact .refl
  | cons x rest ih =>
    have hrest := ih (fun scene y hy => hf scene y (List.mem_cons_of_mem x hy)) (f scene x)
    exact (hf scene x List.mem_cons_self).trans hrest

/-- Binding adds marks and listeners and changes nothing else. -/
theorem eq_of_binds (h : ReflTransGen client.Binds page page') :
    page' = { page with marks := page'.marks, listeners := page'.listeners } := by
  induction h with
  | refl => rfl
  | tail _ hlast ih =>
    cases hlast
    rw [ih]

theorem document_of_binds (h : ReflTransGen client.Binds page page') : page'.document = page.document := by
  rw [eq_of_binds h]

theorem refused_of_binds (h : ReflTransGen client.Binds page page') : page'.refused = page.refused := by
  rw [eq_of_binds h]

theorem marks_subset_of_binds (h : ReflTransGen client.Binds page page') : page.marks ⊆ page'.marks := by
  induction h with
  | refl => exact fun _ hmark => hmark
  | tail _ hlast ih =>
    cases hlast
    exact fun mark hmark => List.mem_cons_of_mem _ (ih hmark)

theorem Binds.mem_listeners {listener : Listener} (h : client.Binds page page') (hmem : listener ∈ page'.listeners) :
    listener ∈ page.listeners ∨ client.Declares page listener := by
  cases h with
  | intro _ _ declares =>
    rcases List.mem_append.1 hmem with hold | hnew
    · exact .inl hold
    · exact .inr (List.mem_singleton.1 hnew ▸ declares)

private theorem binds_bindEvent {view : Option View} {eventType : String} {actions : List Action}
    (h : client.Declares scene.page { node, eventType, client := client.ref, view, actions }) :
    ReflTransGen client.Binds scene.page (client.bindEvent node view scene (eventType, actions)).1.page := by
  rcases bindEvent_cases client node view scene eventType actions with ⟨-, hpage, -⟩ | ⟨⟨fresh, allowed⟩, hpage, -⟩
  · rw [hpage]
  · rw [hpage]
    exact .single (.intro allowed fresh h)

theorem binds_bindEvents {view : Option View} {events : List (String × List Action)}
    (h : ∀ event ∈ events, client.Declares scene.page
      { node, eventType := event.1, client := client.ref, view, actions := event.2 }) :
    ReflTransGen client.Binds scene.page (client.bindEvents node view scene events).1.page := by
  rw [bindEvents_eq]
  induction events generalizing scene with
  | nil => exact .refl
  | cons event rest ih =>
    have hone := binds_bindEvent (h event List.mem_cons_self)
    refine hone.trans (ih fun other hother => ?_)
    refine (h other (List.mem_cons_of_mem event hother)).of_keeps ?_
    rw [document_of_binds hone]
    exact Document.Keeps.refl _

/-- Binding an element follows what it declares. -/
theorem bind_eq (client : Client MemoryPage) (scene : Scene MemoryPage) (node : NodeId) :
    client.bind scene node = match scene.page.declared? client.settings.vocabulary node with
      | none => (scene, .ok 0)
      | some (.error cause) => (scene, .error cause)
      | some (.ok bindings) =>
        let view := Page.view? scene.page client.settings.vocabulary node
        let (scene, added) := client.bindEvents node view scene bindings.events
        (scene, .ok added) := by
  unfold bind MemoryPage.declared?
  dsimp only
  cases Page.attribute? scene.page node client.settings.vocabulary.events with
  | none => rfl
  | some text =>
    simp only [Option.map_some]
    split
    · rename_i h
      simp only [h]
    · rename_i h
      simp only [h]

theorem binds_bind (client : Client MemoryPage) (scene : Scene MemoryPage) (node : NodeId) :
    ReflTransGen client.Binds scene.page (client.bind scene node).1.page := by
  rw [bind_eq]
  split
  · exact .refl
  · exact .refl
  · rename_i bindings h
    exact binds_bindEvents fun _ hevent => declares_of_mem h hevent

theorem binds_bindReporting (client : Client MemoryPage) (scene : Scene MemoryPage) (node : NodeId) :
    ReflTransGen client.Binds scene.page (client.bindReporting scene node).1.page := by
  have h := binds_bind client scene node
  unfold bindReporting
  split
  · rename_i heq
    rw [heq] at h
    exact h
  · rename_i heq
    rw [heq] at h
    exact h

/-- A scan only binds. -/
theorem binds_scan (client : Client MemoryPage) (scene : Scene MemoryPage) (roots : List NodeId) :
    ReflTransGen client.Binds scene.page (client.scan scene roots).1.page := by
  rw [scan_eq, ← page_declaringElements client.settings.vocabulary.events scene roots]
  exact reflTransGen_foldl (fun scene node _ => binds_bindReporting client scene node) _

/-! ### Updates -/

/-- The client edits the document and then binds. -/
def Updates (client : Client MemoryPage) (page page' : MemoryPage) : Prop :=
  ∃ edited, page.Edited edited ∧ ReflTransGen client.Binds edited page'

theorem updates_of_binds (h : ReflTransGen client.Binds page page') : client.Updates page page' :=
  ⟨page, .refl page, h⟩

theorem updates_of_edited (client : Client MemoryPage) (h : page.Edited page') : client.Updates page page' :=
  ⟨page', h, .refl⟩

theorem Updates.changes (h : client.Updates page page') : ReflTransGen client.Change page page' := by
  obtain ⟨edited, hedited, hbinds⟩ := h
  exact (changes_of_edited client hedited).trans (changes_of_binds hbinds)

/-- Neither requests nor streams are touched. -/
theorem Updates.others (h : client.Updates page page') :
    page'.exchanges = page.exchanges ∧ page'.streams = page.streams := by
  obtain ⟨edited, ⟨document, handedOut, -, rfl⟩, hbinds⟩ := h
  rw [eq_of_binds hbinds]
  exact ⟨rfl, rfl⟩

/-! ### Patches and actions -/

theorem updates_patch (client : Client MemoryPage) (scene : Scene MemoryPage) (kind : PatchKind) (selector : String)
    (fragment : Option String) : client.Updates scene.page (client.patch scene kind selector fragment).1.page := by
  have hedited := edited_patch kind selector fragment scene
  unfold patch
  split
  · rename_i heq
    rw [heq] at hedited
    exact client.updates_of_edited hedited
  · rename_i next outcome heq
    rw [heq] at hedited
    exact ⟨next.page, hedited, binds_scan client next outcome.toBind⟩

theorem changes_patch (client : Client MemoryPage) (scene : Scene MemoryPage) (kind : PatchKind) (selector : String)
    (fragment : Option String) :
    ReflTransGen client.Change scene.page (client.patch scene kind selector fragment).1.page :=
  (updates_patch client scene kind selector fragment).changes

/-- Binding what was put in does not change what comes of a patch. -/
theorem snd_patch (client : Client MemoryPage) (scene : Scene MemoryPage) (kind : PatchKind) (selector : String)
    (fragment : Option String) :
    (client.patch scene kind selector fragment).2 = (PageBindings.patch kind selector fragment scene).2 := by
  unfold patch
  split
  · rename_i heq
    rw [heq]
  · rename_i heq
    rw [heq]

/-- A patch that fails leaves the page as it was. -/
theorem page_patch_eq_of_error {kind : PatchKind} {selector : String} {fragment : Option String} {cause : PatchError}
    (h : (client.patch scene kind selector fragment).2 = .error cause) :
    (client.patch scene kind selector fragment).1.page = scene.page := by
  unfold patch at h ⊢
  split
  · rename_i heq
    exact page_patch_of_error heq
  · rename_i heq
    simp [heq] at h

theorem page_patchReporting (client : Client MemoryPage) (scene : Scene MemoryPage) (kind : PatchKind)
    (selector : String) (fragment : Option String) :
    (client.patchReporting scene kind selector fragment).page =
      (client.patch scene kind selector fragment).1.page := by
  unfold patchReporting
  split
  · rename_i heq
    rw [heq]
  · rename_i heq
    rw [heq]
    rfl

theorem changes_patchReporting (client : Client MemoryPage) (scene : Scene MemoryPage) (kind : PatchKind)
    (selector : String) (fragment : Option String) :
    ReflTransGen client.Change scene.page (client.patchReporting scene kind selector fragment).page := by
  rw [page_patchReporting]
  exact changes_patch client scene kind selector fragment

theorem changes_request (client : Client MemoryPage) (node : Option NodeId) (eventType : String)
    (scene : Scene MemoryPage) (action : Action) (endpoint : Endpoint) (target : String) :
    ReflTransGen client.Change scene.page (client.request node eventType scene action endpoint target).page := by
  unfold request
  split
  · exact .refl
  · dsimp only
    split
    · rename_i hsend
      obtain ⟨allowed, rfl⟩ := MemoryPage.send_eq_ok hsend
      exact .single (.send allowed _ _ _ _)
    · exact .refl

theorem changes_runAction (client : Client MemoryPage) (node : Option NodeId) (eventType : String)
    (view : Option View) (scene : Scene MemoryPage) (action : Action) :
    ReflTransGen client.Change scene.page (client.runAction node eventType view scene action).page := by
  unfold runAction
  split
  · exact .refl
  · split
    · exact changes_patchReporting client scene _ _ _
    · exact changes_request client node eventType scene action _ _

theorem changes_run (client : Client MemoryPage) (node : Option NodeId) (eventType : String) (view : Option View)
    (scene : Scene MemoryPage) (actions : List Action) :
    ReflTransGen client.Change scene.page (client.run node eventType view scene actions).page :=
  reflTransGen_foldl (fun scene action _ => changes_runAction client node eventType view scene action) scene

theorem updates_complete (client : Client MemoryPage) (scene : Scene MemoryPage) (errand : Errand)
    (outcome : Outcome) : client.Updates scene.page (client.complete scene errand outcome).page := by
  unfold complete
  split
  · exact client.updates_of_edited (.refl _)
  · split
    · rw [page_patchReporting]
      exact updates_patch client scene _ _ _
    · exact client.updates_of_edited (.refl _)

theorem changes_complete (client : Client MemoryPage) (scene : Scene MemoryPage) (errand : Errand)
    (outcome : Outcome) : ReflTransGen client.Change scene.page (client.complete scene errand outcome).page :=
  (updates_complete client scene errand outcome).changes

/-! ### Pushed fragments -/

/--
A pushed fragment that is not put in leaves at most its nodes, and none of them attached.  One that is put in takes
the place of an attached element, and is bound.
-/
theorem swapPushed_cases (client : Client MemoryPage) (scene : Scene MemoryPage) (html : String) :
    (∃ cause, (client.swapPushed scene html).2 = .error cause ∧
      ((client.swapPushed scene html).1.page = scene.page ∨ ∃ handedOut, (client.swapPushed scene html).1.page =
        { scene.page with document := (scene.page.document.read html).1, handedOut })) ∨
    ∃ e ∈ (scene.page.document.read html).2, ∃ target document handedOut next,
      (scene.page.document.Forest → target < scene.page.document.size) ∧
      Document.put? .swap (scene.page.document.read html).1 target e = some document ∧
      next.page = { scene.page with document, handedOut } ∧
      client.swapPushed scene html =
        (client.bindInserted next { kind := .swap, inserted := [e] }, .ok { kind := .swap, inserted := [e] }) := by
  unfold swapPushed
  dsimp only
  cases hc : Page.create scene.page html with
  | error cause => exact .inl ⟨_, rfl, .inl rfl⟩
  | ok made =>
    obtain ⟨element, page⟩ := made
    obtain ⟨-, helement, handedOut, rfl⟩ := MemoryPage.create_eq_ok hc
    cases element with
    | none => exact .inl ⟨_, rfl, .inr ⟨handedOut, rfl⟩⟩
    | some e =>
      have he : e ∈ (scene.page.document.read html).2 := List.mem_of_mem_head? helement.symm
      dsimp only
      split
      · exact .inl ⟨_, rfl, .inr ⟨handedOut, rfl⟩⟩
      · split
        · exact .inl ⟨_, rfl, .inr ⟨handedOut, rfl⟩⟩
        · exact .inl ⟨_, rfl, .inr ⟨handedOut, rfl⟩⟩
        · rename_i target rest hquery
          split
          · exact .inl ⟨_, rfl, .inr ⟨handedOut, rfl⟩⟩
          · rename_i next hinsert
            obtain ⟨document, hput, rfl⟩ := MemoryPage.insertElement_eq_ok hinsert
            refine .inr ⟨e, he, target, document, handedOut, _, ?_, hput, rfl, rfl⟩
            intro hf
            have hread := (Document.grows_read scene.page.document html).forest hf
            have habove := attached_of_mem_query hread hquery List.mem_cons_self
            exact (Document.attached_read hf habove).lt_size hf.root_lt_size

theorem updates_swapPushed (client : Client MemoryPage) (scene : Scene MemoryPage) (html : String) :
    client.Updates scene.page (client.swapPushed scene html).1.page := by
  rcases swapPushed_cases client scene html with
    ⟨cause, -, hpage | ⟨handedOut, hpage⟩⟩ | ⟨e, he, target, document, handedOut, next, ht, hput, hnext, heq⟩
  · exact client.updates_of_edited (hpage ▸ .refl _)
  · exact client.updates_of_edited ⟨_, handedOut, Document.grows_read _ html, hpage⟩
  · rw [heq]
    exact ⟨next.page, ⟨document, handedOut, Document.grows_put? rfl he hput ht, hnext⟩, binds_scan client next _⟩

theorem changes_swapPushed (client : Client MemoryPage) (scene : Scene MemoryPage) (html : String) :
    ReflTransGen client.Change scene.page (client.swapPushed scene html).1.page :=
  (updates_swapPushed client scene html).changes

end Client

end PageBindings
