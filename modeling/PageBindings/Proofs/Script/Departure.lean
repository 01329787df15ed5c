import PageBindings.Proofs.Script.Reachable

/-!
# Clients that are gone

A client that was dropped does not come back, and what it has left on the page does nothing any more: an event that
reaches one of its listeners changes and prevents nothing, a response to one of its requests settles this request and
nothing else, and its stream is not heard.  So whatever is done from then on goes as if none of its listeners,
requests and streams did anything (`gone_client_inert`).
-/

namespace PageBindings

/-- Whether a notice is about an event whose client is gone. -/
def Notice.isOrphaned : Notice → Bool
  | .orphanedEvent _ => true
  | _ => false

namespace World

variable {world later : World MemoryPage} {ref : ClientRef} {node : NodeId} {eventType : String}

/-- A client that is gone stays away. -/
theorem Later.client?_eq_none (h : world.Later later) (known : ref < world.clients.length)
    (gone : world.client? ref = none) : later.client? ref = none := by
  cases hlive : later.client? ref with
  | none => rfl
  | some client =>
    obtain ⟨before, hbefore, -⟩ := h.client? known hlive
    simp [gone] at hbefore

theorem notify_of_gone {listener : Listener} (gone : world.client? listener.client = none) :
    world.notify listener = (world.withScene (world.note (.orphanedEvent listener.eventType)), false) := by
  unfold notify
  rw [gone]

theorem complete_of_gone {errand : Errand} (gone : world.client? errand.client = none) (outcome : Outcome) :
    world.complete errand outcome = world := by
  unfold complete
  rw [gone]

theorem hear_of_gone (gone : world.client? ref = none) (signal : StreamSignal) : world.hear ref signal = world := by
  unfold hear
  rw [gone]

/-- Fires an event on an element as if it had no listener of a client. -/
def dispatchWithout (ref : ClientRef) (world : World MemoryPage) (node : NodeId) (eventType : String) :
    World MemoryPage × Bool :=
  ((Page.listeners world.page node eventType).filter (·.client != ref)).foldl
    (fun (world, prevented) listener =>
      let (world, prevents) := world.notify listener
      (world, prevented || prevents))
    (world, false)

/-- An event makes no difference if its listener is one of a client that is gone, but for a notice. -/
theorem dispatch_cases (hs : world.Sound) (gone : world.client? ref = none) (node : NodeId) (eventType : String) :
    world.dispatch node eventType = world.dispatchWithout ref node eventType ∨
      (world.dispatch node eventType = (world.withScene (world.note (.orphanedEvent eventType)), false) ∧
        world.dispatchWithout ref node eventType = (world, false)) := by
  by_cases hown : ∃ listener ∈ world.page.listenersOf node eventType, listener.client = ref
  · obtain ⟨listener, bound, rfl⟩ := hown
    obtain ⟨-, hmatch⟩ := List.mem_filter.1 bound
    obtain ⟨rfl, rfl⟩ : listener.node = node ∧ listener.eventType = eventType := by simpa using hmatch
    have hsingle : Page.listeners world.page listener.node listener.eventType = [listener] := hs.eq_singleton bound
    right
    rw [dispatch_of_singleton hsingle, notify_of_gone gone]
    unfold dispatchWithout
    rw [hsingle]
    simp
  · left
    have hothers : (Page.listeners world.page node eventType).filter (·.client != ref) =
        Page.listeners world.page node eventType := by
      refine List.filter_eq_self.2 fun listener hmem => bne_iff_ne.2 fun he => hown ⟨listener, hmem, he⟩
    unfold dispatch dispatchWithout
    rw [hothers]

end World

namespace Script

variable {world later : World MemoryPage} {ref : ClientRef}

/-- Performs a step as if listeners, requests and streams of a client did nothing. -/
def MemoryStep.performWithout (ref : ClientRef) (world : World MemoryPage) : MemoryStep → Result MemoryPage
  | .onPage (.dispatch node eventType) => withNode world node fun node =>
    let (world, prevented) := world.dispatchWithout ref node eventType
    (world, .ok (.dispatched prevented))
  | .respond request outcome =>
    match pendingRequest? world.page.exchanges request with
    | none => (world, .error .noSuchRequest)
    | some (index, errand) =>
      let settled := { world with
        page := { world.page with exchanges := Exchange.settle world.page.exchanges index } }
      (if errand.client = ref then settled else settled.complete errand outcome, .ok (.number index))
  | .stream signal =>
    match world.page.streams.getLast? with
    | none => (world, .error .noStream)
    | some latest => (if latest.owner = ref then world else world.hear latest.owner signal, .ok .nothing)
  | step => step.perform world

/--
What is seen of steps one after the other, with the notices of each: the worlds that they leave and their answers.
Notices about events whose client is gone are left out.
-/
def seen (perform : World MemoryPage → MemoryStep → Result MemoryPage) :
    World MemoryPage → List MemoryStep → List (Result MemoryPage)
  | _, [] => []
  | world, step :: rest =>
    let (next, answer) := perform world step
    ({ next with notices := next.notices.filter fun notice => !notice.isOrphaned }, answer) ::
      seen perform { next with notices := [] } rest

/-- What a client that is gone has left does nothing. -/
structure Inert (world : World MemoryPage) (ref : ClientRef) : Prop where
  /-- An event changes nothing of the page and of the clients, and its default action is not prevented. -/
  event {node : NodeId} {eventType : String} {listener : Listener}
    (bound : listener ∈ world.page.listenersOf node eventType) (own : listener.client = ref) :
    (world.dispatch node eventType).1.page = world.page ∧ (world.dispatch node eventType).1.clients = world.clients ∧
      (world.dispatch node eventType).2 = false
  /-- The outcome of a request, whatever it is, settles the request and does nothing else. -/
  response {request : RequestRef} {index : Nat} {errand : Errand}
    (answered : pendingRequest? world.page.exchanges request = some (index, errand)) (own : errand.client = ref)
    (outcome : Outcome) : (MemoryStep.perform world (.respond request outcome)).1 =
      { world with page := { world.page with exchanges := Exchange.settle world.page.exchanges index } } ∧
    Exchange.pending? (Exchange.settle world.page.exchanges index) index = none ∧
    ∀ other ≠ index, Exchange.pending? (Exchange.settle world.page.exchanges index) other =
      Exchange.pending? world.page.exchanges other
  /-- What the stream brings is not heard. -/
  signal (signal : StreamSignal) : world.hear ref signal = world ∧
    (world.page.streams.getLast?.map MemoryPage.Stream.owner = some ref →
      MemoryStep.perform world (.stream signal) = (world, .ok .nothing))
  /-- Steps of all kinds go as if nothing of the client did anything. -/
  others (steps : List MemoryStep) :
    seen (fun world step => step.perform world) world steps =
      seen (fun world step => step.performWithout ref world) world steps

/-- A step goes as if nothing of a client that is gone did anything, but for a notice about an event. -/
theorem MemoryStep.perform_cases (hs : world.Sound) (gone : world.client? ref = none) (step : MemoryStep) :
    step.perform world = step.performWithout ref world ∨
      ∃ next eventType answer, step.performWithout ref world = (next, answer) ∧
        step.perform world = (next.withScene (next.note (.orphanedEvent eventType)), answer) := by
  cases step with
  | onPage step =>
    cases step with
    | dispatch node eventType =>
      simp only [perform, performWithout, PageStep.perform, withNode]
      split
      · rename_i found _
        rcases World.dispatch_cases hs gone found eventType with hsame | ⟨hnoted, hnothing⟩
        · left
          rw [hsame]
        · right
          rw [hnoted, hnothing]
          exact ⟨_, _, _, rfl, rfl⟩
      · exact .inl rfl
    | _ => exact .inl rfl
  | respond request outcome =>
    left
    simp only [perform, performWithout]
    cases pendingRequest? world.page.exchanges request with
    | none => rfl
    | some pending =>
      obtain ⟨index, errand⟩ := pending
      dsimp only
      split
      · rename_i hown
        subst hown
        rw [World.complete_of_gone (by exact gone)]
      · rfl
  | stream signal =>
    left
    simp only [perform, performWithout]
    cases world.page.streams.getLast? with
    | none => rfl
    | some latest =>
      dsimp only
      split
      · rename_i hown
        rw [hown, World.hear_of_gone gone]
      · rfl
  | _ => exact .inl rfl

/-- What is seen is the same, step by step, as long as the client stays away. -/
private theorem seen_eq_seen_performWithout (h : Reachable world) (known : ref < world.clients.length)
    (gone : world.client? ref = none) (steps : List MemoryStep) :
    seen (fun world step => step.perform world) world steps =
      seen (fun world step => step.performWithout ref world) world steps := by
  induction steps generalizing world with
  | nil => rfl
  | cons step rest ih =>
    have hnext : Leads world { (step.perform world).1 with notices := [] } := .tail (.single (.perform step)) .report
    have hlater := hnext.later h.sound.numbered
    have hrest := ih (h.leads hnext) (Nat.lt_of_lt_of_le known hlater.length_le) (hlater.client?_eq_none known gone)
    unfold seen
    rcases MemoryStep.perform_cases h.sound gone step with hsame | ⟨next, eventType, answer, hwithout, hperform⟩
    · rw [hsame] at hrest ⊢
      dsimp only
      rw [hrest]
    · rw [hperform] at hrest ⊢
      rw [hwithout]
      have hfilter : (next.note (.orphanedEvent eventType)).notices.filter (fun notice => !notice.isOrphaned) =
          next.notices.filter fun notice => !notice.isOrphaned := by
        simp [Scene.note, Notice.isOrphaned]
      dsimp only [World.withScene] at hrest ⊢
      rw [hfilter]
      exact congrArg (_ :: ·) hrest

/-- Once a client was dropped, it and all that it has left do nothing, whatever happens afterwards. -/
theorem gone_client_inert (h : Reachable world) (known : ref < world.clients.length)
    (gone : world.client? ref = none) (run : Leads world later) : Inert later ref := by
  have hreachable := h.leads run
  have hlater := run.later h.sound.numbered
  have hgone := hlater.client?_eq_none known gone
  have hknown := Nat.lt_of_lt_of_le known hlater.length_le
  refine ⟨?_, ?_, ?_, seen_eq_seen_performWithout hreachable hknown hgone⟩
  · rintro node eventType listener bound rfl
    rw [World.dispatch_of_singleton (hreachable.sound.eq_singleton bound), World.notify_of_gone hgone]
    exact ⟨rfl, rfl, rfl⟩
  · rintro request index errand answered rfl outcome
    refine ⟨?_, Exchange.pending?_settle_self _ _, fun other h => Exchange.pending?_settle_of_ne _ h⟩
    simp only [MemoryStep.perform, answered]
    exact World.complete_of_gone (by exact hgone) outcome
  · intro signal
    refine ⟨World.hear_of_gone hgone signal, fun howner => ?_⟩
    obtain ⟨latest, hlatest, rfl⟩ := Option.map_eq_some_iff.1 howner
    simp only [MemoryStep.perform, hlatest]
    rw [World.hear_of_gone hgone]

/-- A client is gone that has bound a paragraph, sent a request and opened its stream, and another one is there. -/
def departed : World MemoryPage :=
  ((MemorySession.begin
    "<p silta-events='\x7b\"click\":[[\"append\",\x7b\"target\":\"body\"\x7d,[\"/next\"]]]\x7d'></p>"
    { streamUrl := some "/stream" } []).after
      [.withClient 0 .start, .onPage (.dispatch (.number 2) "click"), .addClient none [], .dropClient 0]).world

theorem gone_client_inert_departed :
    (departed.dispatch 2 "click").1.page = departed.page ∧
    (MemoryStep.perform departed (.respond .first (.ok ⟨200, "<q></q>"⟩))).1.page.document = departed.page.document ∧
    MemoryStep.perform departed (.stream .opening) = (departed, .ok .nothing) := by
  have hfacts : departed.clients.length = 2 ∧ (departed.client? 0).isNone = true ∧
      (departed.page.listenersOf 2 "click").map Listener.client = [0] ∧
      pendingRequest? departed.page.exchanges .first = some (0, ⟨0, .append, "body"⟩) ∧
      departed.page.streams.getLast?.map MemoryPage.Stream.owner = some 0 := by decide +kernel
  obtain ⟨hlength, hgone, hlisteners, hanswered, howner⟩ := hfacts
  obtain ⟨listener, bound, own⟩ := List.mem_map.1 (hlisteners ▸ List.mem_singleton_self 0)
  have hreachable : Reachable departed := MemorySession.reachable _ _ _ _
  have hinert := gone_client_inert hreachable (hlength ▸ Nat.two_pos) (Option.isNone_iff_eq_none.1 hgone) .refl
  refine ⟨(hinert.event bound own).1, ?_, (hinert.signal .opening).2 howner⟩
  rw [(hinert.response hanswered rfl _).1]

end Script

end PageBindings
