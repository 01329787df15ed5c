import PageBindings.Proofs.Client.Run
import PageBindings.Proofs.Script.Reachable

/-!
# What an event sets off

An event runs the actions that its element declares for the client that bound it, one after the other
(`dispatch_runs_declared`).  The requests that this sends are those of the actions with an endpoint, each made when
its turn comes, and an action that fails then makes no difference.  Only an action without an endpoint needs its
selector to match: one with an endpoint sends its request all the same (`unmatched_action_sends`), and its selector is
looked at when the response is there.
-/

namespace PageBindings.Script

variable {world : World MemoryPage} {client : Client MemoryPage} {listener : Listener} {node : NodeId}
  {eventType : String}

/-- An event on an element runs these actions of a client, and nothing else happens. -/
structure Runs (world : World MemoryPage) (node : NodeId) (eventType : String) (client : Client MemoryPage)
    (view : Option View) (actions : List Action) : Prop where
  /-- The actions run once each, in order, on what the ones before have left. -/
  dispatch : world.dispatch node eventType =
    (world.withScene
        (actions.foldl (client.runAction (Page.currentTarget? world.page node) eventType view) world.toScene),
      client.settings.prevents eventType)
  /-- The requests are those of the actions, each when its turn comes, if the page does not refuse them. -/
  requests : (world.dispatch node eventType).1.page.exchanges = world.page.exchanges ++
    if MemoryPage.Capability.send ∈ world.page.refused then []
    else client.exchangesOf (Page.currentTarget? world.page node) eventType view world.toScene actions
  /-- An action that fails when its turn comes does nothing to the page, and the others do the same without it. -/
  failing {before after : List Action} {action : Action} (split : actions = before ++ action :: after)
    (fails : client.Fails view
      (client.run (Page.currentTarget? world.page node) eventType view world.toScene before).page action) :
    (client.run (Page.currentTarget? world.page node) eventType view world.toScene (before ++ [action])).page =
        (client.run (Page.currentTarget? world.page node) eventType view world.toScene before).page ∧
      (world.dispatch node eventType).1.page =
        (client.run (Page.currentTarget? world.page node) eventType view world.toScene (before ++ after)).page

private theorem runs_of_dispatch {view : Option View} {actions : List Action}
    (h : world.dispatch node eventType =
      (world.withScene (client.run (Page.currentTarget? world.page node) eventType view world.toScene actions),
        client.settings.prevents eventType)) : Runs world node eventType client view actions where
  dispatch := h
  requests := by
    rw [h]
    exact client.exchanges_run _ eventType view world.toScene actions
  failing {before after action} split fails := by
    subst split
    rw [h]
    refine ⟨?_, Client.page_run_of_fails fails⟩
    rw [Client.run_append]
    exact Client.page_runAction_of_fails fails

/-- An event runs what its element declares for it, read for the view of the element. -/
theorem dispatch_runs_declared (h : Reachable world) (bound : listener ∈ world.page.listenersOf node eventType)
    (live : world.client? listener.client = some client) :
    ∃ text bindings actions,
      world.page.document.attribute? node client.settings.vocabulary.events = some text ∧
      Bindings.parse text ((Page.view? world.page client.settings.vocabulary node).map
        (View.selector client.settings.vocabulary)) = .ok bindings ∧
      bindings.actions? eventType = some actions ∧
      Runs world node eventType client (Page.view? world.page client.settings.vocabulary node) actions := by
  obtain ⟨hmem, hmatch⟩ := List.mem_filter.1 bound
  obtain ⟨rfl, rfl⟩ : listener.node = node ∧ listener.eventType = eventType := by simpa using hmatch
  have hdeclares := (h.sound.declared listener hmem).2 client live
  obtain ⟨bindings, hdeclared, hactions⟩ := hdeclares.actions
  obtain ⟨text, htext, hparse⟩ := Option.map_eq_some_iff.1 hdeclared
  refine ⟨text, bindings, listener.actions, htext, hparse, hactions, runs_of_dispatch ?_⟩
  rw [World.dispatch_of_singleton (h.sound.eq_singleton bound), World.notify, live, ← hdeclares.view]

/-- A paragraph that asks for the content of an element that is not there. -/
def hopeful : World MemoryPage :=
  ((MemorySession.begin
    "<p silta-events='\x7b\"click\":[[\"swap\",\x7b\"target\":\"#none\"\x7d,[\"/x\"]]]\x7d'>x</p>" {} []).after
      [.withClient 0 .start]).world

private theorem hopeful_bound : ∃ listener client, listener ∈ hopeful.page.listenersOf 2 "click" ∧
    hopeful.client? listener.client = some client ∧ listener.actions.map Action.target = [some "#none"] := by
  have hfacts : (hopeful.page.listenersOf 2 "click").map (fun listener =>
      (listener.client, listener.actions.map Action.target)) = [(0, [some "#none"])] ∧
      (hopeful.client? 0).isSome = true := by decide +kernel
  obtain ⟨hlisteners, hlive⟩ := hfacts
  obtain ⟨listener, hmem, heq⟩ := List.mem_map.1 (hlisteners ▸ List.mem_singleton_self (0, [some "#none"]))
  obtain ⟨hclient, htargets⟩ := Prod.mk.inj heq
  obtain ⟨client, hlive⟩ := Option.isSome_iff_exists.1 hlive
  exact ⟨listener, client, hmem, by rw [hclient, hlive], htargets⟩

theorem dispatch_runs_declared_hopeful : ∃ (client : Client MemoryPage) (bindings : Bindings) (actions : List Action),
    bindings.actions? "click" = some actions ∧
      Runs hopeful 2 "click" client (Page.view? hopeful.page client.settings.vocabulary 2) actions := by
  obtain ⟨listener, client, hmem, hlive, -⟩ := hopeful_bound
  have hreachable : Reachable hopeful := MemorySession.reachable _ _ _ _
  obtain ⟨-, bindings, actions, -, -, hactions, hruns⟩ := dispatch_runs_declared hreachable hmem hlive
  exact ⟨client, bindings, actions, hactions, hruns⟩

/-- It is not so that an action whose selector matches nothing sends no request. -/
theorem unmatched_action_sends :
    ¬ ∀ (world : World MemoryPage) (node : NodeId) (eventType : String) (listener : Listener)
      (client : Client MemoryPage) (action : Action) (target : String),
      Reachable world → listener ∈ world.page.listenersOf node eventType →
      world.client? listener.client = some client → listener.actions = [action] →
      targetSelector client.settings.vocabulary action.target listener.view = .ok target →
      Page.query world.page none target = .ok [] →
      (world.dispatch node eventType).1.page.exchanges = world.page.exchanges := by
  intro h
  obtain ⟨listener, client, hmem, hlive, htargets⟩ := hopeful_bound
  obtain ⟨action, hactions, htarget⟩ := List.map_eq_singleton_iff.1 htargets
  have hfacts : Page.query hopeful.page none "#none" = .ok [] ∧ hopeful.page.exchanges.length = 0 ∧
      (hopeful.dispatch 2 "click").1.page.exchanges.length = 1 := by decide +kernel
  obtain ⟨hquery, hbefore, hafter⟩ := hfacts
  have hsame :=
    h hopeful 2 "click" listener client action "#none" (MemorySession.reachable _ _ _ _) hmem hlive hactions
    (by rw [htarget]; rfl) hquery
  rw [hsame, hbefore] at hafter
  exact Nat.zero_ne_one hafter

end PageBindings.Script
