import PageBindings.Proofs.Script.Reachable
import PageBindings.Proofs.World.Coverage

/-!
# What is declared is bound

Once a client was started on the body of a page, every element of the document has a listener for each event type that
it declares and no other (`bound_as_declared`), as long as nothing is refused and content comes in through clients
only (`MemoryStep.isTame`).
-/

namespace PageBindings.Script

open Relation (ReflTransGen)

variable {world world' : World MemoryPage} {client : Client MemoryPage} {names : Vocabulary}

/-! ### Tame steps -/

/-- Whether a step on the page puts no content in that no client knows of. -/
def PageStep.isTame : PageStep → Bool
  | .patch .. | .patchNodes .. | .insert .. => false
  | _ => true

/-- Whether a step leaves the clients their work: it adds and drops none, refuses nothing and puts in no content. -/
def MemoryStep.isTame : MemoryStep → Bool
  | .onPage step => step.isTame
  | .addClient .. | .dropClient .. | .refuse .. => false
  | .withClient .. | .respond .. | .stream .. => true

/-- What comes next in a world that is left to its clients. -/
inductive NextTame (world : World MemoryPage) : World MemoryPage → Prop
  | perform (step : MemoryStep) (tame : step.isTame = true) : NextTame world (step.perform world).1
  | report : NextTame world { world with notices := [] }

theorem NextTame.next (h : NextTame world world') : Next world world' := by
  cases h with
  | perform step => exact .perform step
  | report => exact .report

private theorem covered_withNode (h : world.Covered names) (ref : NodeRef) {go : NodeId → Result MemoryPage}
    (hgo : ∀ node, (go node).1.Covered names) : (withNode world ref go).1.Covered names :=
  withNode_of (P := fun world => world.Covered names) ref h hgo

private theorem covered_withNodes (h : world.Covered names) (refs : List NodeRef)
    {go : List NodeId → Result MemoryPage} (hgo : ∀ nodes, (go nodes).1.Covered names) :
    (withNodes world refs go).1.Covered names :=
  withNodes_of (P := fun world => world.Covered names) refs h hgo

theorem ClientStep.covered (h : world.Covered names) (hc : client.settings.vocabulary = names) (step : ClientStep) :
    (step.perform world client).1.Covered names := by
  cases step with
  | start =>
    rw [fst_start]
    exact h.start hc
  | scan nodes =>
    refine covered_withNodes h nodes fun nodes => ?_
    exact h.withScene (h.covers.binds (client.binds_scan world.toScene nodes))
  | bind node =>
    rw [fst_bind]
    refine covered_withNode h node fun node => ?_
    exact h.withScene (h.covers.binds (client.binds_bind world.toScene node))
  | patch kind target fragment =>
    rw [fst_patch]
    subst hc
    exact h.withScene (Client.covers_patch h.covers kind target fragment)
  | swapPushed html =>
    rw [fst_swapPushed]
    subst hc
    exact h.withScene (Client.covers_swapPushed h.covers html)
  | connect =>
    rw [fst_connect]
    exact h.connect hc
  | close => exact h.close hc
  | view node => exact covered_withNode h node fun _ => h

theorem PageStep.covered (h : world.Covered names) (step : PageStep) (tame : step.isTame = true) :
    (step.perform world).1.Covered names := by
  cases step with
  | dispatch node eventType => exact covered_withNode h node fun node => h.dispatch node eventType
  | enter node value =>
    refine covered_withNode h node fun node => ⟨h.unanimous, ?_⟩
    have hg := Document.grows_setValue world.page.document node (some value)
    refine h.covers.edit hg (fun n hn => ?_) world.page.handedOut
    refine hg.above h.covers.forest ?_ hn
    have hlt := hn.lt_size (hg.forest h.covers.forest).root_lt_size
    rwa [Document.setValue, Document.size_modify] at hlt
  | resolve added parameters =>
    simp only [perform]
    split <;> exact h
  | patch => simp [isTame] at tame
  | patchNodes => simp [isTame] at tame
  | insert => simp [isTame] at tame
  | create html =>
    simp only [perform]
    split
    · rename_i node page heq
      obtain ⟨-, -, handedOut, rfl⟩ := MemoryPage.create_eq_ok heq
      refine ⟨h.unanimous, ?_⟩
      exact h.covers.edit (Document.grows_read _ html) (fun _ => Document.attached_read h.covers.forest) handedOut
    · exact h
  | find selector =>
    simp only [perform]
    split <;> exact h
  | disjoint nodes => exact covered_withNodes h nodes fun _ => h
  | eventful nodes marker =>
    refine covered_withNodes h nodes fun nodes => h.withScene ?_
    rw [page_declaringElements]
    exact h.covers
  | attributeOf node name => exact covered_withNode h node fun _ => h
  | isAttached node => exact covered_withNode h node fun _ => h
  | outline node => exact covered_withNode h node fun _ => h

theorem MemoryStep.covered (h : world.Covered names) (step : MemoryStep) (tame : step.isTame = true) :
    (step.perform world).1.Covered names := by
  cases step with
  | addClient => simp [isTame] at tame
  | dropClient => simp [isTame] at tame
  | withClient ref step =>
    simp only [perform]
    split
    · rename_i client live
      exact step.covered h (h.unanimous.client? live)
    · exact h
  | onPage step => exact step.covered h tame
  | respond ref outcome =>
    simp only [perform]
    split
    · exact h
    · rename_i index errand _
      have hsettled : World.Covered { world with page := { world.page with
          exchanges := Exchange.settle world.page.exchanges index } } names :=
        ⟨h.unanimous, h.covers.congr rfl rfl rfl⟩
      exact hsettled.complete errand outcome
  | stream signal =>
    simp only [perform]
    split
    · exact h
    · exact h.hear _ signal
  | refuse => simp [isTame] at tame

theorem covered_of_tame (h : ReflTransGen NextTame world world') (hc : world.Covered names) :
    world'.Covered names := by
  induction h with
  | refl => exact hc
  | tail _ hlast ih =>
    cases hlast with
    | perform step tame => exact step.covered ih tame
    | report => exact ⟨ih.unanimous, ih.covers⟩

/-! ### The start -/

/-- The document node declares nothing. -/
theorem Reachable.declared?_root (h : Reachable world) (names : Vocabulary) :
    world.page.declared? names Document.root = none := by
  obtain ⟨markup, h⟩ := h
  have hkeeps := (h.later (sound_withBody markup).numbered).keeps
  have hnone : world.page.document.attribute? Document.root names.events = none := by
    rw [hkeeps.attribute? (Document.forest_withBody markup).root_lt_size]
    exact (Document.keeps_withBody markup).attribute? Document.forest_empty.root_lt_size names.events
  exact Option.map_eq_none_iff.2 hnone

/-- A scan of all that is directly below the document node leaves nothing unbound. -/
theorem Reachable.covers_scan (h : Reachable world) (forest : world.page.document.Forest)
    (refused : world.page.refused = [])
    (nameChars : ∀ c ∈ client.settings.vocabulary.events.toList, Selector.isNameChar c = true) {roots : List NodeId}
    (body : ∀ node ∈ world.page.document.children Document.root, node ∈ roots) :
    (client.scan world.toScene roots).1.page.Covers client.settings.vocabulary := by
  have hb := client.binds_scan world.toScene roots
  refine ⟨nameChars, by rwa [Client.document_of_binds hb], by rwa [Client.refused_of_binds hb], fun node hn => ?_⟩
  rw [Client.document_of_binds hb] at hn
  rcases Relation.ReflTransGen.cases_tail hn with hroot | ⟨top, hbelow, htop⟩
  · intro bindings hdeclared
    rw [MemoryPage.declared?_of_binds hb, ← hroot, h.declared?_root] at hdeclared
    simp at hdeclared
  · exact Client.bound_scan forest nameChars (by simp [refused]) (body top (forest.mem_children_iff.2 htop)) hbelow

/-! ### Listeners -/

/-- An element has a listener for each event type that it declares, and none if its declaration cannot be read. -/
structure BoundAsDeclared (page : MemoryPage) (marker : String) (node : NodeId) : Prop where
  readable {text : String} {selfTarget : Option String} {bindings : Bindings}
    (declared : page.document.attribute? node marker = some text)
    (read : Bindings.parse text selfTarget = .ok bindings) (eventType : String) :
    (page.listenersOf node eventType).length = if eventType ∈ bindings.events.map (·.1) then 1 else 0
  unreadable (h : ∀ text selfTarget bindings, page.document.attribute? node marker = some text →
    Bindings.parse text selfTarget ≠ .ok bindings) (eventType : String) : page.listenersOf node eventType = []

/-- Every listener is there because its element declares it. -/
private theorem declared_of_mem_listenersOf (hs : world.Sound) (hu : world.Unanimous names) {node : NodeId}
    {eventType : String} {listener : Listener} (h : listener ∈ world.page.listenersOf node eventType) :
    ∃ bindings, world.page.declared? names node = some (.ok bindings) ∧ eventType ∈ bindings.events.map (·.1) := by
  obtain ⟨hmem, hmatch⟩ := List.mem_filter.1 h
  obtain ⟨rfl, rfl⟩ : listener.node = node ∧ listener.eventType = eventType := by simpa using hmatch
  obtain ⟨hlt, hdeclares⟩ := hs.declared listener hmem
  obtain ⟨client, live⟩ := hu.exists_client hlt
  obtain ⟨bindings, hbindings, hactions⟩ := (hdeclares client live).actions
  rw [hu.client? live] at hbindings
  exact ⟨bindings, hbindings, Bindings.mem_of_actions? hactions⟩

theorem boundAsDeclared_of_covered (hs : world.Sound) (hc : world.Covered names) {node : NodeId}
    (attached : world.page.document.Above Document.root node) : BoundAsDeclared world.page names.events node where
  readable {text selfTarget bindings} declared read eventType := by
    -- the client reads the declaration for the view of the element
    obtain ⟨own, hown, hkeys⟩ := Bindings.exists_parse read
      ((Page.view? world.page names node).map (View.selector names))
    have hdeclared : world.page.declared? names node = some (.ok own) := by
      rw [← hown]
      exact congrArg (Option.map _) declared
    rw [← hkeys]
    rw [hs.paired]
    by_cases hmem : eventType ∈ own.events.map (·.1)
    · obtain ⟨event, hevent, rfl⟩ := List.mem_map.1 hmem
      rw [if_pos hmem, if_pos (hc.covers.bound node attached own hdeclared event hevent)]
    · rw [if_neg hmem, if_neg]
      -- a mark comes with a listener, which is there because its event type is declared
      intro hmark
      have hlength := hs.paired node eventType
      rw [if_pos hmark] at hlength
      obtain ⟨listener, hlistener⟩ := List.length_eq_one_iff.1 hlength
      obtain ⟨bindings', hdeclared', hmem'⟩ := declared_of_mem_listenersOf hs hc.unanimous
        (hlistener ▸ List.mem_singleton_self listener)
      rw [hdeclared] at hdeclared'
      exact hmem (Except.ok.inj (Option.some.inj hdeclared') ▸ hmem')
  unreadable h eventType := by
    refine List.eq_nil_iff_forall_not_mem.2 fun listener hmem => ?_
    obtain ⟨bindings, hdeclared, -⟩ := declared_of_mem_listenersOf hs hc.unanimous hmem
    obtain ⟨text, htext, hparse⟩ := Option.map_eq_some_iff.1 hdeclared
    exact h text _ bindings htext hparse

/--
After a client was started on all that is directly below the document node, every attached element is bound as it
declares, whatever its clients do, and so another scan adds nothing.
-/
theorem bound_as_declared (h : Reachable world) {ref : ClientRef} (live : world.client? ref = some client)
    (unanimous : world.Unanimous client.settings.vocabulary) (forest : world.page.document.Forest)
    (refused : world.page.refused = [])
    (nameChars : ∀ c ∈ client.settings.vocabulary.events.toList, Selector.isNameChar c = true) {roots : List NodeId}
    (matched : Page.query world.page none client.settings.rootSelector = .ok roots)
    (body : ∀ node ∈ world.page.document.children Document.root, node ∈ roots) {later : World MemoryPage}
    (run : ReflTransGen NextTame (MemoryStep.perform world (.withClient ref .start)).1 later) :
    (∀ node, later.page.document.isAttached node = true →
      BoundAsDeclared later.page client.settings.vocabulary.events node) ∧
    ∀ other otherRef, later.client? otherRef = some other →
      ∀ attached : List NodeId, (∀ root ∈ attached, later.page.document.isAttached root = true) →
        (other.scan later.toScene attached).1.page = later.page ∧ (other.scan later.toScene attached).2 = 0 := by
  have hstart : (MemoryStep.perform world (.withClient ref .start)).1 = (world.start client).1 := by
    simp only [MemoryStep.perform, live]
    exact ClientStep.fst_start world client
  have hcovered : later.Covered client.settings.vocabulary := by
    refine covered_of_tame run ?_
    rw [hstart]
    exact World.covered_start unanimous rfl matched (h.covers_scan forest refused nameChars body)
  have hreachable : Reachable later :=
    h.leads (.head (.perform (.withClient ref .start)) (ReflTransGen.mono (fun _ _ => NextTame.next) _ _ run))
  have hforest := hcovered.covers.forest
  refine ⟨fun node hnode => ?_, fun other otherRef hother attached hattached => ?_⟩
  · exact boundAsDeclared_of_covered hreachable.sound hcovered (hforest.isAttached_iff.1 hnode)
  · have hnames := hcovered.unanimous.client? hother
    refine Client.scan_of_bound hforest (hnames ▸ hcovered.covers.nameChars) fun root hroot node hbelow => ?_
    rw [hnames]
    exact hcovered.covers.bound node ((hforest.isAttached_iff.1 (hattached root hroot)).trans hbelow)

/-- A paragraph that asks for another one on a click. -/
def asking : World MemoryPage :=
  (MemorySession.begin
    "<p silta-events='\x7b\"click\":[[\"append\",\x7b\"target\":\"body\"\x7d,[\"/next\"]]]\x7d'></p>" {} []).world

/-- The clicks and responses that bring the other paragraph. -/
def asked : World MemoryPage :=
  let started := (MemoryStep.perform asking (.withClient 0 .start)).1
  let sent := (MemoryStep.perform started (.onPage (.dispatch (.selector "p") "click"))).1
  (MemoryStep.perform sent (.respond .first (.ok ⟨200, "<p silta-events='\x7b\"focus\":[[\"remove\"]]\x7d'></p>"⟩))).1

theorem bound_as_declared_asked :
    asked.page.document.isAttached 3 = true ∧ BoundAsDeclared asked.page "silta-events" 3 := by
  have hattached : asked.page.document.isAttached 3 = true := by decide +kernel
  have hreachable : Reachable asking := MemorySession.reachable _ _ _ []
  have hlive : asking.client? 0 = some ⟨0, {}, "client-" ++ toString 0, resolversWith [], .idle⟩ := rfl
  have hunanimous : asking.Unanimous {} := by
    intro entry hentry
    exact ⟨_, List.mem_singleton.1 hentry, rfl⟩
  have hforest : asking.page.document.Forest := MemorySession.forest_begin _ _ _
  have hchars : "silta-events".toList.all Selector.isNameChar = true := by decide +kernel
  have hmatched : Page.query asking.page none "body" = .ok [1] := by decide +kernel
  have hrun : ReflTransGen NextTame (MemoryStep.perform asking (.withClient 0 .start)).1 asked :=
    .tail (.tail .refl (.perform (.onPage (.dispatch (.selector "p") "click")) rfl))
      (.perform (.respond .first _) rfl)
  have hbound := bound_as_declared hreachable hlive hunanimous hforest rfl (List.all_eq_true.1 hchars) hmatched
    (by decide +kernel) hrun
  exact ⟨hattached, hbound.1 3 hattached⟩

end PageBindings.Script
