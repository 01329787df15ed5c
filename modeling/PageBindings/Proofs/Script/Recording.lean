import PageBindings.Proofs.Document.Containment
import PageBindings.Proofs.Script.Reachable
import PageBindings.Proofs.World.Later
import PageBindings.Proofs.World.Recording

/-!
# Sessions on pages with a record

A session that puts no old element in at another place keeps its document a forest.  The same session on a page with a
record (`recorded`) does the same to the page, step by step (`MemoryStep.twin`), and its record says of every document
on the way, also of those that a step leaves behind in between, that it is a forest and that nodes keep what is
written in them, and of every insertion that it had its place (`document_stays_forest`).
-/

namespace PageBindings.Script

open World (Twin)

/-- The step puts an old element in at another place. -/
def MemoryStep.insertsOld : MemoryStep → Bool
  | .onPage (.insert ..) => true
  | _ => false

variable {world : World RecordingPage} {plain : World MemoryPage} {client : Client RecordingPage}
  {other : Client MemoryPage}

/-! ### References and resolvers -/

theorem findNode_base (page : RecordingPage) (ref : NodeRef) : findNode page.base ref = findNode page ref := by
  cases ref <;> rfl

theorem twin_withNode (h : world.Twin plain) (ref : NodeRef) {go : NodeId → Result RecordingPage}
    {go' : NodeId → Result MemoryPage} (hgo : ∀ node, (go node).1.Twin (go' node).1) :
    (withNode world ref go).1.Twin (withNode plain ref go').1 := by
  unfold withNode
  rw [h.page, findNode_base]
  split
  · exact hgo _
  · exact h

theorem twin_withNodes (h : world.Twin plain) (refs : List NodeRef) {go : List NodeId → Result RecordingPage}
    {go' : List NodeId → Result MemoryPage} (hgo : ∀ nodes, (go nodes).1.Twin (go' nodes).1) :
    (withNodes world refs go).1.Twin (withNodes plain refs go').1 := by
  unfold withNodes
  rw [h.page, funext (findNode_base world.page)]
  split
  · exact hgo _
  · exact h

theorem twin_resolversWith (added : List (String × SampleResolver)) :
    Resolvers.Twin (resolversWith added) (resolversWith added) := by
  unfold resolversWith
  induction added using List.reverseRecOn with
  | nil => exact .standard
  | append_singleton added last ih =>
    rw [List.foldl_concat, List.foldl_concat]
    exact ih.insert last.1 fun _ => by cases last.2 <;> rfl

/-! ### Steps -/

theorem ClientStep.twin (h : world.Twin plain) (hc : client.Twin other) (step : ClientStep) :
    (step.perform world client).1.Twin (step.perform plain other).1 := by
  cases step with
  | start =>
    rw [fst_start, fst_start]
    exact h.start hc
  | scan nodes =>
    refine twin_withNodes h nodes fun nodes => ?_
    rw [h.scene.plain_eq]
    exact h.withScene (Client.faithful_scan hc h.orderly nodes).records
  | bind node =>
    rw [fst_bind, fst_bind]
    refine twin_withNode h node fun node => ?_
    rw [h.scene.plain_eq]
    exact h.withScene (Client.faithful_bind hc h.orderly node).records
  | patch kind target fragment =>
    rw [fst_patch, fst_patch, h.scene.plain_eq]
    exact h.withScene (Client.faithful_patch hc h.orderly kind target fragment).records
  | swapPushed html =>
    rw [fst_swapPushed, fst_swapPushed, h.scene.plain_eq]
    exact h.withScene (Client.faithful_swapPushed hc h.orderly html).records
  | connect =>
    rw [fst_connect, fst_connect]
    exact (h.connect hc).1
  | close => exact h.close hc
  | view node => exact twin_withNode h node fun node => h

theorem PageStep.twin (h : world.Twin plain) (step : PageStep) (hold : (MemoryStep.onPage step).insertsOld = false) :
    (step.perform world).1.Twin (step.perform plain).1 := by
  cases step with
  | dispatch node eventType => exact twin_withNode h node fun node => h.dispatch node eventType
  | enter node value =>
    refine twin_withNode h node fun node => ?_
    have grows := Document.grows_setValue world.page.base.document node (some value)
    rw [h.page]
    exact h.withPage (h.orderly.edit grows)
  | resolve added parameters =>
    rw [fst_resolve, fst_resolve]
    exact h
  | patch kind target fragment =>
    rw [fst_patch, fst_patch, h.scene.plain_eq]
    exact h.withScene (faithful_patch h.orderly kind target fragment).records
  | patchNodes kind nodes fragment =>
    rw [fst_patchNodes, fst_patchNodes]
    refine twin_withNodes h nodes fun nodes => ?_
    rw [h.scene.plain_eq]
    exact h.withScene (faithful_patchElements h.orderly kind fragment nodes).records
  | insert kind target node => simp [MemoryStep.insertsOld] at hold
  | create html =>
    simp only [perform]
    rw [RecordingPage.create_eq, h.page]
    cases hmade : Page.create world.page.base html with
    | error cause => exact h
    | ok made => exact h.withPage (h.orderly.create hmade)
  | find selector =>
    rw [fst_find, fst_find]
    exact h
  | disjoint nodes => exact twin_withNodes h nodes fun nodes => h
  | eventful nodes marker =>
    refine twin_withNodes h nodes fun nodes => ?_
    rw [h.scene.plain_eq]
    exact h.withScene (Client.faithful_declaringElements h.orderly marker nodes).records
  | attributeOf node name => exact twin_withNode h node fun node => h
  | isAttached node => exact twin_withNode h node fun node => h
  | outline node => exact twin_withNode h node fun node => h

/-- Performs a step of a session on a page with a record. -/
def MemoryStep.performRecording (world : World RecordingPage) : MemoryStep → World RecordingPage
  | .addClient settings added =>
    match readSettings settings with
    | .error _ => world
    | .ok settings => (world.addClient settings (resolversWith added)).1
  | .dropClient ref => if ref < world.clients.length then world.drop ref else world
  | .withClient ref step =>
    match world.client? ref with
    | some client => (step.perform world client).1
    | none => world
  | .onPage step => (step.perform world).1
  | .respond ref outcome =>
    match pendingRequest? world.page.base.exchanges ref with
    | none => world
    | some (index, errand) =>
      let base := { world.page.base with exchanges := Exchange.settle world.page.base.exchanges index }
      { world with page := { world.page with base } }.complete errand outcome
  | .stream signal =>
    match world.page.base.streams.getLast? with
    | none => world
    | some latest => world.hear latest.owner signal
  | .refuse capability off =>
    { world with page := { world.page with base := world.page.base.setRefused capability off } }

theorem MemoryStep.twin (h : world.Twin plain) (step : MemoryStep) (hold : step.insertsOld = false) :
    (step.performRecording world).Twin (step.perform plain).1 := by
  cases step with
  | addClient settings added =>
    simp only [perform, performRecording]
    cases readSettings settings with
    | error cause => exact h
    | ok settings => exact h.addClient settings (twin_resolversWith added)
  | dropClient ref =>
    simp only [perform, performRecording]
    rw [h.length]
    split
    · exact h.drop ref
    · exact h
  | withClient ref step =>
    simp only [perform, performRecording]
    rcases h.client_cases ref with ⟨hnone, hnone'⟩ | ⟨client, other, hlive, hlive', hc⟩
    · rw [hnone, hnone']
      exact h
    · rw [hlive, hlive']
      exact step.twin h hc
  | onPage step => exact step.twin h hold
  | respond ref outcome =>
    simp only [perform, performRecording]
    rw [h.page]
    cases pendingRequest? world.page.base.exchanges ref with
    | none => exact h
    | some pending =>
      have hsettled := h.withBase
        { world.page.base with exchanges := Exchange.settle world.page.base.exchanges pending.1 } rfl
      exact hsettled.complete pending.2 outcome
  | stream signal =>
    simp only [perform, performRecording]
    rw [h.page]
    cases world.page.base.streams.getLast? with
    | none => exact h
    | some latest => exact h.hear latest.owner signal
  | refuse capability off =>
    simp only [perform, performRecording]
    rw [h.page]
    exact h.withBase _ rfl

/-! ### Runs -/

/-- The world after some steps, without the notices of each. -/
def afterRecording (world : World RecordingPage) (steps : List MemoryStep) : World RecordingPage :=
  steps.foldl (fun world step => { step.performRecording world with notices := [] }) world

theorem twin_after {session : MemorySession} (h : world.Twin session.world) {steps : List MemoryStep}
    (hold : ∀ step ∈ steps, step.insertsOld = false) :
    (afterRecording world steps).Twin (session.after steps).world := by
  induction steps generalizing world session with
  | nil => exact h
  | cons step rest ih =>
    have hone := (step.twin h (hold step List.mem_cons_self)).withNotices []
    have hnext : World.Twin { step.performRecording world with notices := [] } (session.step step).1.world := hone
    exact ih hnext fun other hother => hold other (List.mem_cons_of_mem step hother)

/-- The page of a session, with the record of what became of its document. -/
def recorded (markup : String) (settings : Settings) (added : List (String × SampleResolver))
    (steps : List MemoryStep) : RecordingPage :=
  let world : World RecordingPage := { page := { base := MemoryPage.withBody markup } }
  let (world, _) := world.addClient settings (resolversWith added)
  (afterRecording world steps).page

/-- The record begins with the first document. -/
theorem twin_withBody (markup : String) :
    World.Twin { page := { base := MemoryPage.withBody markup } } { page := MemoryPage.withBody markup } where
  scene := by
    refine ⟨rfl, ?_, ?_, ?_⟩
    · exact List.forall_mem_singleton.2 (Document.forest_withBody markup)
    · exact List.pairwise_singleton _ _
    · exact List.forall_mem_nil _
  length := rfl
  client? _ := .none

/-- What is known of a session that keeps its document a forest. -/
structure KeepsForest (markup : String) (settings : Settings) (added : List (String × SampleResolver))
    (steps : List MemoryStep) : Prop where
  /-- The record is about the page of the session. -/
  page : (recorded markup settings added steps).base =
      ((MemorySession.begin markup settings added).after steps).world.page
  /-- All documents on the way are forests, nodes keep what is written in them, and insertions have their places. -/
  orderly : (recorded markup settings added steps).Orderly
  /-- In each of these documents the search for a node upwards ends, with the answer of the page and no other. -/
  search : ∀ d ∈ (recorded markup settings added steps).history, ∀ a n answer,
    d.Search a n answer ↔ d.contains a n = answer
  /-- So does the search for the document node. -/
  searchRoot : ∀ d ∈ (recorded markup settings added steps).history, ∀ n answer,
    d.Search Document.root n answer ↔ d.isAttached n = answer
  order : ∀ d ∈ (recorded markup settings added steps).history, IsPartialOrder NodeId fun a n => d.contains a n = true
  /-- From any step on nodes keep what is written in them. -/
  later {done rest : List MemoryStep} (hsteps : steps = done ++ rest) :
    ((MemorySession.begin markup settings added).after done).world.page.document.Keeps
      ((MemorySession.begin markup settings added).after steps).world.page.document

theorem document_stays_forest (markup : String) (settings : Settings) (added : List (String × SampleResolver))
    {steps : List MemoryStep} (hold : ∀ step ∈ steps, step.insertsOld = false) :
    KeepsForest markup settings added steps := by
  have hbegin := (twin_withBody markup).addClient settings (twin_resolversWith added)
  have htwin : World.Twin _ ((MemorySession.begin markup settings added).after steps).world := twin_after hbegin hold
  have horderly : (recorded markup settings added steps).Orderly := htwin.orderly
  refine ⟨htwin.page.symm, horderly, ?_, ?_, ?_, ?_⟩
  · exact fun d hd a n answer => (horderly.forest d hd).search_iff
  · exact fun d hd n answer => (horderly.forest d hd).search_iff
  · exact fun d hd => (horderly.forest d hd).isPartialOrder_contains
  · rintro done rest rfl
    have hlast : ((MemorySession.begin markup settings added).after (done ++ rest)) =
        ((MemorySession.begin markup settings added).after done).after rest := List.foldl_append
    have hsound := (MemorySession.reachable markup settings added done).sound
    rw [hlast]
    exact ((MemorySession.leads_after _ rest).later hsound.numbered).keeps

/-- Paragraphs are exchanged, one of which has left with the other one, and a quotation is put in first. -/
def exchangingSteps : List MemoryStep :=
  [.onPage (.patch .swap "p" (some "<b><p></p></b>")), .withClient 0 (.patch .prepend "body" (some "<q></q>"))]

theorem document_stays_forest_exchanging :
    KeepsForest "<i></i><p><p></p></p><p></p>" {} [] exchangingSteps ∧
      (recorded "<i></i><p><p></p></p><p></p>" {} [] exchangingSteps).insertions.map Insertion.index = [0, 2, 1] :=
  ⟨document_stays_forest _ _ _ (by decide), by decide +kernel⟩

end PageBindings.Script
