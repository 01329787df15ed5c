import PageBindings.Proofs.Client.Exchanges

/-!
# What a run of actions amounts to

The requests that a run of actions sends are those of its actions, each made when the turn of its action comes
(`exchanges_run`).  What actions do to the page depends on the page alone (`page_run_congr`), so that an action that
fails when its turn comes (`Client.Fails`) might as well not be there (`page_run_of_fails`).
-/

namespace PageBindings.Client

open Relation (ReflTransGen)

variable {client : Client MemoryPage} {node : Option NodeId} {eventType : String} {view : Option View}
  {page page' : MemoryPage} {scene scene' : Scene MemoryPage} {action : Action}

/-- The request of an action when its turn comes: of one with an endpoint, if its target and parameters are found. -/
def exchange? (client : Client MemoryPage) (view : Option View) (page : MemoryPage) (action : Action) :
    Option Exchange :=
  match targetSelector client.settings.vocabulary action.target view, action.endpoint with
  | .ok target, some endpoint =>
    match client.resolvers.resolve page endpoint.parameters with
    | .ok parameters => some {
        request := Request.forEndpoint client.settings client.id endpoint.path parameters
        errand := some { client := client.ref, kind := action.kind, target } }
    | .error _ => none
  | _, _ => none

/-- The requests of actions, each when its turn comes. -/
def exchangesOf (client : Client MemoryPage) (node : Option NodeId) (eventType : String) (view : Option View) :
    Scene MemoryPage → List Action → List Exchange
  | _, [] => []
  | scene, action :: rest =>
    (client.exchange? view scene.page action).toList ++
      client.exchangesOf node eventType view (client.runAction node eventType view scene action) rest

/-- The action fails when its turn comes. -/
inductive Fails (client : Client MemoryPage) (view : Option View) (page : MemoryPage) (action : Action) : Prop
  | noTarget {cause : LookupError}
      (aim : targetSelector client.settings.vocabulary action.target view = .error cause)
  | unresolved {endpoint : Endpoint} {cause : LookupError} (remote : action.endpoint = some endpoint)
      (parameters : client.resolvers.resolve page endpoint.parameters = .error cause)
  | invalid {target : String} {cause : PageError} (local_ : action.endpoint = none)
      (aim : targetSelector client.settings.vocabulary action.target view = .ok target)
      (query : Page.query page none target = .error cause)
  | noMatch {target : String} (local_ : action.endpoint = none)
      (aim : targetSelector client.settings.vocabulary action.target view = .ok target)
      (query : Page.query page none target = .ok [])
  | noFragment (local_ : action.endpoint = none) (creates : action.kind.creates = true)

theorem run_append (client : Client MemoryPage) (node : Option NodeId) (eventType : String) (view : Option View)
    (scene : Scene MemoryPage) (before after : List Action) :
    client.run node eventType view scene (before ++ after) =
      client.run node eventType view (client.run node eventType view scene before) after :=
  List.foldl_append

/-! ### Requests -/

theorem refused_of_changes (h : ReflTransGen client.Change page page') : page'.refused = page.refused := by
  induction h with
  | refl => rfl
  | tail _ hlast ih =>
    cases hlast with
    | edit => exact ih
    | bind binds => exact (refused_of_binds (.single binds)).trans ih
    | send => exact ih

theorem exchanges_runAction (client : Client MemoryPage) (node : Option NodeId) (eventType : String)
    (view : Option View) (scene : Scene MemoryPage) (action : Action) :
    (client.runAction node eventType view scene action).page.exchanges = scene.page.exchanges ++
      if MemoryPage.Capability.send ∈ scene.page.refused then []
      else (client.exchange? view scene.page action).toList := by
  unfold runAction exchange?
  cases targetSelector client.settings.vocabulary action.target view with
  | error cause => simp
  | ok target =>
    cases action.endpoint with
    | none =>
      dsimp only
      rw [page_patchReporting, exchanges_patch]
      simp
    | some endpoint =>
      unfold request
      dsimp only
      cases client.resolvers.resolve scene.page endpoint.parameters with
      | error cause => simp
      | ok parameters =>
        by_cases hsend : MemoryPage.Capability.send ∈ scene.page.refused
        · simp [Page.send, MemoryPage.send, MemoryPage.allow, hsend]
        · simp [Page.send, MemoryPage.send, MemoryPage.allow, hsend]

/-- A run sends the requests of its actions in turn, or none if the page refuses them. -/
theorem exchanges_run (client : Client MemoryPage) (node : Option NodeId) (eventType : String) (view : Option View)
    (scene : Scene MemoryPage) (actions : List Action) :
    (client.run node eventType view scene actions).page.exchanges = scene.page.exchanges ++
      if MemoryPage.Capability.send ∈ scene.page.refused then []
      else client.exchangesOf node eventType view scene actions := by
  induction actions generalizing scene with
  | nil => simp [run, exchangesOf]
  | cons action rest ih =>
    -- an action refuses nothing, so that all of a run is sent or nothing is
    have hrefused := refused_of_changes (changes_runAction client node eventType view scene action)
    show (client.run node eventType view (client.runAction node eventType view scene action) rest).page.exchanges = _
    rw [ih, hrefused, exchanges_runAction]
    split
    · simp
    · simp [exchangesOf]

/-! ### Actions that fail -/

theorem page_runAction_congr (h : scene'.page = scene.page) (action : Action) :
    (client.runAction node eventType view scene' action).page =
      (client.runAction node eventType view scene action).page := by
  unfold runAction
  cases targetSelector client.settings.vocabulary action.target view with
  | error cause => exact h
  | ok target =>
    cases action.endpoint with
    | none =>
      dsimp only
      rw [page_patchReporting, page_patchReporting]
      exact page_patch_congr client h action.kind target none
    | some endpoint =>
      unfold request
      dsimp only
      rw [h]
      cases client.resolvers.resolve scene.page endpoint.parameters with
      | error cause => exact h
      | ok parameters =>
        dsimp only
        split
        · rfl
        · exact h

/-- What actions do to the page depends on the page alone. -/
theorem page_run_congr (h : scene'.page = scene.page) (actions : List Action) :
    (client.run node eventType view scene' actions).page = (client.run node eventType view scene actions).page := by
  unfold run
  induction actions generalizing scene scene' with
  | nil => exact h
  | cons action rest ih => exact ih (page_runAction_congr h action)

/-- An action that fails leaves the page as it was. -/
theorem page_runAction_of_fails (h : client.Fails view scene.page action) :
    (client.runAction node eventType view scene action).page = scene.page := by
  unfold runAction
  cases htarget : targetSelector client.settings.vocabulary action.target view with
  | error cause => rfl
  | ok target =>
    dsimp only
    cases h with
    | noTarget h => simp [htarget] at h
    | unresolved remote parameters =>
      rw [remote]
      simp only [request, parameters]
      rfl
    | invalid local_ h query =>
      obtain rfl := Except.ok.inj (htarget.symm.trans h)
      rw [local_]
      dsimp only
      rw [page_patchReporting]
      simp only [patch, PageBindings.patch, query]
    | noMatch local_ h query =>
      obtain rfl := Except.ok.inj (htarget.symm.trans h)
      rw [local_]
      dsimp only
      rw [page_patchReporting]
      simp only [patch, PageBindings.patch, query]
    | noFragment local_ creates =>
      rw [local_]
      dsimp only
      rw [page_patchReporting]
      have lacks : scene.page.LacksContent none := fun html h => by simp at h
      obtain ⟨hpage, hnil⟩ := patch_of_lacks creates lacks target
      unfold patch
      split
      · rename_i heq
        rw [heq] at hpage
        exact hpage
      · rename_i next outcome heq
        rw [heq] at hpage hnil
        have hscan : outcome.toBind = [] := by
          unfold PatchOutcome.toBind
          rw [hnil outcome rfl, ite_self]
        unfold bindInserted
        rw [hscan]
        exact hpage

/-- Without an action that fails when its turn comes, a run does the same to the page. -/
theorem page_run_of_fails {before after : List Action}
    (h : client.Fails view (client.run node eventType view scene before).page action) :
    (client.run node eventType view scene (before ++ action :: after)).page =
      (client.run node eventType view scene (before ++ after)).page := by
  rw [run_append, run_append]
  exact page_run_congr (page_runAction_of_fails h) after

/-! ### Responses -/

/-- What a response brings is no request. -/
theorem exchanges_complete (client : Client MemoryPage) (scene : Scene MemoryPage) (errand : Errand)
    (outcome : Outcome) : (client.complete scene errand outcome).page.exchanges = scene.page.exchanges := by
  unfold complete
  split
  · rfl
  · split
    · rw [page_patchReporting, exchanges_patch]
    · rfl

theorem page_complete_of_success (client : Client MemoryPage) (scene : Scene MemoryPage) (errand : Errand)
    (body : String) : (client.complete scene errand (.ok ⟨200, body⟩)).page =
      (client.patch scene errand.kind errand.target (some body)).1.page := by
  rw [← page_patchReporting]
  rfl

theorem page_complete_of_failure {outcome : Outcome} (h : ∀ body, outcome ≠ .ok ⟨200, body⟩) (errand : Errand) :
    (client.complete scene errand outcome).page = scene.page := by
  unfold complete
  split
  · rfl
  · rename_i response
    split
    · rename_i hstatus
      exact absurd (by rw [← hstatus]) (h response.body)
    · rfl

end PageBindings.Client
