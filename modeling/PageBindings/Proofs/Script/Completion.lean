import PageBindings.Proofs.Client.Run
import PageBindings.Proofs.Script.Reachable

/-!
# What a response does

A request is for the patch that was fixed when its action ran (`Sends`).  Whenever its response arrives, the client
makes this patch on the page as it is by then, or nothing if the response is no success or the patch fails, and the
request alone is settled, for good (`respond_completes`).
-/

namespace PageBindings.Script

variable {world later : World MemoryPage} {client client' : Client MemoryPage} {node : NodeId} {eventType : String}
  {kind : PatchKind} {target : String} {index : Nat}

/-- An event on an element makes a client send a request of this number, for a patch of this kind and target. -/
inductive Sends (world : World MemoryPage) (node : NodeId) (eventType : String) (client : Client MemoryPage) :
    PatchKind → String → Nat → Prop
  | intro {listener : Listener} {before after : List Action} {action : Action} {target : String} {endpoint : Endpoint}
      {parameters : List Json} (bound : listener ∈ world.page.listenersOf node eventType)
      (live : world.client? listener.client = some client) (split : listener.actions = before ++ action :: after)
      (aim : targetSelector client.settings.vocabulary action.target listener.view = .ok target)
      (remote : action.endpoint = some endpoint)
      (resolved : client.resolvers.resolve
        (client.run (Page.currentTarget? world.page node) eventType listener.view world.toScene before).page
        endpoint.parameters = .ok parameters)
      (allowed : MemoryPage.Capability.send ∉ world.page.refused) :
      Sends world node eventType client action.kind target
        (client.run (Page.currentTarget? world.page node) eventType listener.view world.toScene
          before).page.exchanges.length

/-- What a response does to a request that a client sent for a patch of this kind and target. -/
structure Completes (later : World MemoryPage) (client : Client MemoryPage) (kind : PatchKind) (target : String)
    (index : Nat) (outcome : Outcome) (next : World MemoryPage) : Prop where
  /-- No client changes, nor its push channel. -/
  clients : next.clients = later.clients
  /-- A success patches the page as it is. -/
  success {body : String} (h : outcome = .ok ⟨200, body⟩) :
    next.page = (client.patch later.toScene kind target (some body)).1.page.withExchanges
      (Exchange.settle later.page.exchanges index)
  /-- Anything else changes nothing, and neither does a patch that fails. -/
  failure (h : ∀ body, outcome = .ok ⟨200, body⟩ →
    ∃ cause, (client.patch later.toScene kind target (some body)).2 = .error cause) :
    next.page = later.page.withExchanges (Exchange.settle later.page.exchanges index)
  /-- The request is settled, and no other one is, nor is a new one sent. -/
  settled : Exchange.pending? next.page.exchanges index = none
  others {other : Nat} (h : other ≠ index) :
    Exchange.pending? next.page.exchanges other = Exchange.pending? later.page.exchanges other
  requests : next.page.exchanges.map Exchange.request = later.page.exchanges.map Exchange.request
  /-- The request is never answered again. -/
  once {final : World MemoryPage} (h : Leads next final) (ref : RequestRef) (errand : Errand) :
    pendingRequest? final.page.exchanges ref ≠ some (index, errand)

/-! ### The request that is sent -/

/-- The request is kept with its errand. -/
theorem Sends.exchange (h : Sends world node eventType client kind target index) (hs : world.Sound) :
    ∃ request, (world.dispatch node eventType).1.page.exchanges[index]? =
      some { request, errand := some { client := client.ref, kind, target } } := by
  cases h with
  | @intro listener before after action target endpoint parameters bound live split aim remote resolved allowed =>
    obtain ⟨-, hmatch⟩ := List.mem_filter.1 bound
    obtain ⟨rfl, rfl⟩ : listener.node = node ∧ listener.eventType = eventType := by simpa using hmatch
    rw [World.dispatch_of_singleton (hs.eq_singleton bound), World.notify, live]
    dsimp only [World.withScene]
    rw [split, Client.run_append]
    have hrefused := Client.refused_of_changes (client.changes_run (Page.currentTarget? world.page listener.node)
      listener.eventType listener.view world.toScene before)
    generalize client.run (Page.currentTarget? world.page listener.node) listener.eventType listener.view
      world.toScene before = turn at resolved hrefused ⊢
    -- the request is added when the turn of the action comes, and what comes after is added behind it
    have hsent := client.exchanges_runAction (Page.currentTarget? world.page listener.node) listener.eventType
      listener.view turn action
    rw [hrefused, if_neg allowed] at hsent
    simp only [Client.exchange?, aim, remote, resolved, Option.toList_some] at hsent
    refine ⟨Request.forEndpoint client.settings client.id endpoint.path parameters, ?_⟩
    show (client.run _ _ _ (client.runAction _ _ _ turn action) after).page.exchanges[_]? = _
    rw [Client.exchanges_run, hsent, List.getElem?_append_left, List.getElem?_concat_length]
    simp

/-- The client is still there once the event was handled. -/
theorem Sends.live (h : Sends world node eventType client kind target index) (hs : world.Sound) :
    (world.dispatch node eventType).1.client? client.ref = some client := by
  cases h with
  | intro bound live =>
    rw [World.dispatch_of_singleton (hs.eq_singleton bound), World.notify, live, hs.numbered _ client live]
    exact live

/-- A request that can be answered is pending. -/
theorem pending?_of_pendingRequest? {exchanges : List Exchange} {ref : RequestRef} {errand : Errand}
    (h : pendingRequest? exchanges ref = some (index, errand)) : Exchange.pending? exchanges index = some errand := by
  have listed (hmem : (index, errand) ∈ pendingRequest?.pendingRequests exchanges) :
      Exchange.pending? exchanges index = some errand := by
    obtain ⟨⟨exchange, position⟩, hzip, hexchange⟩ := List.mem_filterMap.1 hmem
    obtain ⟨found, herrand, heq⟩ := Option.map_eq_some_iff.1 hexchange
    obtain ⟨rfl, rfl⟩ := Prod.mk.inj heq
    have hget := List.mk_mem_zipIdx_iff_getElem?.1 hzip
    simp [Exchange.pending?, hget, herrand]
  cases ref with
  | number number =>
    obtain ⟨found, hpending, heq⟩ := Option.map_eq_some_iff.1 h
    obtain ⟨rfl, rfl⟩ := Prod.mk.inj heq
    exact hpending
  | first => exact listed (List.mem_of_mem_head? h)
  | last => exact listed (List.mem_of_mem_getLast? h)

/-! ### Its response -/

/-- The scene once a request has its response, and nothing has been made of it yet. -/
def settle (world : World MemoryPage) (index : Nat) : Scene MemoryPage :=
  { world.toScene with page := world.page.withExchanges (Exchange.settle world.page.exchanges index) }

private theorem page_settle (world : World MemoryPage) (index : Nat) :
    (settle world index).page = world.page.withExchanges (Exchange.settle world.page.exchanges index) :=
  rfl

/-- A response is handed to the client that sent the request, with the request settled. -/
private theorem perform_respond {ref : RequestRef} {errand : Errand}
    (live : later.client? errand.client = some client)
    (answered : pendingRequest? later.page.exchanges ref = some (index, errand)) (outcome : Outcome) :
    (MemoryStep.perform later (.respond ref outcome)).1 =
      later.withScene (client.complete (settle later index) errand outcome) := by
  have hsettled : (later.withScene (settle later index)).client? errand.client = some client := live
  have hcomplete : (later.withScene (settle later index)).complete errand outcome =
      later.withScene (client.complete (settle later index) errand outcome) := by
    unfold World.complete
    rw [hsettled]
    rfl
  rw [← hcomplete]
  simp only [MemoryStep.perform, answered]
  rfl

private theorem completes_respond (hn : later.Numbered) (live : later.client? client.ref = some client')
    {ref : RequestRef} (answered : pendingRequest? later.page.exchanges ref =
      some (index, { client := client.ref, kind, target })) (outcome : Outcome) :
    Completes later client' kind target index outcome (MemoryStep.perform later (.respond ref outcome)).1 := by
  have hnext := World.numbered_of_changes (MemoryStep.changes hn (.respond ref outcome)) hn
  rw [perform_respond live answered outcome] at hnext ⊢
  have hexchanges := client'.exchanges_complete (settle later index) { client := client.ref, kind, target } outcome
  have success : ∀ body, outcome = .ok ⟨200, body⟩ →
      (client'.complete (settle later index) { client := client.ref, kind, target } outcome).page =
        (client'.patch later.toScene kind target (some body)).1.page.withExchanges
          (Exchange.settle later.page.exchanges index) := by
    rintro body rfl
    rw [Client.page_complete_of_success]
    exact (Client.alike_patch client' (page_settle later index) kind target (some body)).page
  have hdone : Exchange.pending? (client'.complete (settle later index)
      { client := client.ref, kind, target } outcome).page.exchanges index = none := by
    rw [hexchanges]
    exact Exchange.pending?_settle_self _ _
  refine ⟨rfl, success _, fun h => ?_, hdone, fun h => ?_, ?_, fun hl ref errand h => ?_⟩
  · by_cases hsuccess : ∃ body, outcome = .ok ⟨200, body⟩
    · obtain ⟨body, hbody⟩ := hsuccess
      obtain ⟨cause, hcause⟩ := h body hbody
      exact (success body hbody).trans (by rw [Client.page_patch_eq_of_error hcause])
    · exact Client.page_complete_of_failure (fun body hbody => hsuccess ⟨body, hbody⟩) _
  · exact (congrArg (Exchange.pending? · _) hexchanges).trans (Exchange.pending?_settle_of_ne _ h)
  · exact (congrArg (List.map _) hexchanges).trans (Exchange.map_request_settle _ _)
  · have hlength : index < (client'.complete (settle later index)
        { client := client.ref, kind, target } outcome).page.exchanges.length := by
      rw [hexchanges]
      have hlt := World.lt_length_of_pending? (pending?_of_pendingRequest? answered)
      exact Nat.lt_of_lt_of_eq hlt (List.length_modify _ _ _).symm
    have hnever := (hl.later hnext).not_pending hlength hdone
    rw [pending?_of_pendingRequest? h] at hnever
    simp at hnever

/--
A response to a request that an event has sent makes the patch that was asked for then, on the page as it is now, or
nothing; and it settles the request and nothing else.
-/
theorem respond_completes (h : Reachable world) (sends : Sends world node eventType client kind target index)
    (run : Leads (world.dispatch node eventType).1 later) {ref : RequestRef} {errand : Errand}
    (answered : pendingRequest? later.page.exchanges ref = some (index, errand))
    (live : later.client? client.ref = some client') (outcome : Outcome) :
    client' = { client with channel := client'.channel } ∧
      Completes later client' kind target index outcome (MemoryStep.perform later (.respond ref outcome)).1 := by
  have hs := h.sound
  have hdispatched := World.numbered_of_changes (World.changes_dispatch hs.numbered node eventType) hs.numbered
  have hlater := run.later hdispatched
  obtain ⟨request, hsent⟩ := sends.exchange hs
  obtain rfl := Option.some.inj (hlater.pending? hsent (pending?_of_pendingRequest? answered))
  refine ⟨?_,
    completes_respond (World.numbered_of_changes (run.changes hdispatched) hdispatched) live answered outcome⟩
  obtain ⟨before, hbefore, heq⟩ := hlater.client? (World.lt_length_of_client? (sends.live hs)) live
  rw [sends.live hs] at hbefore
  exact Option.some.inj hbefore ▸ heq

/-- A paragraph that asks for another one on a click. -/
def curious : World MemoryPage :=
  ((MemorySession.begin
    "<p silta-events='\x7b\"click\":[[\"append\",\x7b\"target\":\"body\"\x7d,[\"/next\"]]]\x7d'></p>" {} []).after
      [.withClient 0 .start]).world

/-- The paragraph was clicked, and is gone by now. -/
def bereft : World MemoryPage :=
  (MemoryStep.perform (curious.dispatch 2 "click").1 (.withClient 0 (.patch .remove "p" none))).1

private theorem curious_sends : ∃ client, client.ref = 0 ∧ Sends curious 2 "click" client .append "body" 0 := by
  have hlisteners : (curious.page.listenersOf 2 "click").map (fun listener =>
      (listener.client, listener.actions.map fun action =>
        (action.kind, action.target, action.endpoint.map fun endpoint => endpoint.parameters.length))) =
      [(0, [(.append, some "body", some 0)])] := by decide +kernel
  have hfacts : (curious.client? 0).isSome = true ∧ MemoryPage.Capability.send ∉ curious.page.refused ∧
      curious.page.exchanges.length = 0 := by decide +kernel
  obtain ⟨hlive, allowed, hlength⟩ := hfacts
  obtain ⟨client, hlive⟩ := Option.isSome_iff_exists.1 hlive
  obtain ⟨listener, bound, heq⟩ := List.mem_map.1 (hlisteners ▸ List.mem_singleton_self _)
  obtain ⟨hclient, hactions⟩ := Prod.mk.inj heq
  obtain ⟨action, hactions, haction⟩ := List.map_eq_singleton_iff.1 hactions
  simp only [Prod.mk.injEq, Option.map_eq_some_iff, List.length_eq_zero_iff] at haction
  obtain ⟨hkind, htarget, endpoint, hendpoint, hparameters⟩ := haction
  have hreachable : Reachable curious := MemorySession.reachable _ _ _ _
  refine ⟨client, hreachable.sound.numbered 0 client hlive, ?_⟩
  have hsplit : listener.actions = [] ++ action :: [] := hactions
  have haim : targetSelector client.settings.vocabulary action.target listener.view = .ok "body" := by
    rw [htarget]
    rfl
  have hresolved : client.resolvers.resolve (client.run (Page.currentTarget? curious.page 2) "click" listener.view
      curious.toScene []).page endpoint.parameters = .ok [] := by
    rw [hparameters]
    rfl
  rw [← hkind, ← hlength]
  exact .intro bound (hclient ▸ hlive) hsplit haim hendpoint hresolved allowed

theorem respond_completes_bereft : ∃ client, Completes bereft client .append "body" 0 (.ok ⟨200, "<q></q>"⟩)
    (MemoryStep.perform bereft (.respond .first (.ok ⟨200, "<q></q>"⟩))).1 := by
  obtain ⟨client, hzero, hsends⟩ := curious_sends
  have hreachable : Reachable curious := MemorySession.reachable _ _ _ _
  have hrun : Leads (curious.dispatch 2 "click").1 bereft := .single (.perform _)
  have hfacts : pendingRequest? bereft.page.exchanges .first = some (0, ⟨0, .append, "body"⟩) ∧
      (bereft.client? 0).isSome = true := by decide +kernel
  obtain ⟨hanswered, hlive⟩ := hfacts
  obtain ⟨client', hlive⟩ := Option.isSome_iff_exists.1 hlive
  exact ⟨client', (respond_completes hreachable hsends hrun hanswered (hzero ▸ hlive) _).2⟩

end PageBindings.Script
