import PageBindings.Proofs.Client.Change
import PageBindings.Proofs.Patch.Recording

/-!
# Clients on pages with a record

Clients are twins if they differ in nothing but that one of them works on a page with a record, and the other one on
the page below (`Client.Twin`).  Whatever both are asked to do they do alike, and the record stays orderly: they scan
(`faithful_scan`), run actions (`records_run`), take responses (`records_complete`) and pushed fragments
(`faithful_swapPushed`).
-/

namespace PageBindings

/-! ### Resolvers -/

/-- What is read from a page with a record is what the other resolvers read from the page below. -/
def Resolvers.Twin (resolvers : Resolvers RecordingPage) (plain : Resolvers MemoryPage) : Prop :=
  ∀ page name, (plain.find? name).map (fun resolver => resolver page.base) =
    (resolvers.find? name).map fun resolver => resolver page

namespace Resolvers.Twin

variable {resolvers : Resolvers RecordingPage} {plain : Resolvers MemoryPage}

theorem insert (h : resolvers.Twin plain) (name : String) {resolver : Resolver RecordingPage}
    {resolver' : Resolver MemoryPage} (hresolver : ∀ page, resolver' page.base = resolver page) :
    (resolvers.insert name resolver).Twin (plain.insert name resolver') := by
  intro page other
  unfold Resolvers.insert
  dsimp only
  split
  · exact congrArg some (hresolver page)
  · exact h page other

theorem standard : Resolvers.Twin Resolvers.standard Resolvers.standard := by
  have hempty : Resolvers.Twin Resolvers.empty Resolvers.empty := fun _ _ => rfl
  exact (hempty.insert "value" fun _ => rfl).insert "attribute" fun _ => rfl

theorem visit_eq (h : resolvers.Twin plain) (page : RecordingPage) :
    plain.visit page.base = resolvers.visit page := by
  funext node
  unfold visit
  split
  · rfl
  · split
    · rfl
    · rename_i parameter _
      have hfind := h page parameter.resolver
      cases hplain : plain.find? parameter.resolver <;> cases hown : resolvers.find? parameter.resolver <;>
        rw [hplain, hown] at hfind
      · simp at hfind
      · simp at hfind
      · exact congrArg (Except.map _) (congrFun (Option.some.inj hfind) parameter.arguments)

theorem resolve_eq (h : resolvers.Twin plain) (page : RecordingPage) (parameters : List Json) :
    plain.resolve page.base parameters = resolvers.resolve page parameters := by
  unfold resolve resolveOne
  rw [h.visit_eq]

end Resolvers.Twin

/-! ### Clients -/

namespace Client

/-- The clients differ in their pages alone. -/
structure Twin (client : Client RecordingPage) (plain : Client MemoryPage) : Prop where
  ref : plain.ref = client.ref
  settings : plain.settings = client.settings
  id : plain.id = client.id
  channel : plain.channel = client.channel
  resolvers : client.resolvers.Twin plain.resolvers

variable {client : Client RecordingPage} {plain : Client MemoryPage} {scene : Scene RecordingPage} {node : NodeId}

/-! ### Binding -/

/-- Steps that each add up to a result do so faithfully if each of them is faithful. -/
theorem faithful_foldl {α β : Type} {f : Scene RecordingPage → α → Scene RecordingPage × β}
    {g : Scene MemoryPage → α → Scene MemoryPage × β} (add : β → β → β)
    (hfg : ∀ {scene} x, scene.page.Orderly → Faithful (f scene x) (g scene.unrecorded x))
    (h : scene.page.Orderly) (xs : List α) (sum : β) :
    Faithful
      (xs.foldl (fun (scene, sum) x =>
        let (scene, more) := f scene x
        (scene, add sum more)) (scene, sum))
      (xs.foldl (fun (scene, sum) x =>
        let (scene, more) := g scene x
        (scene, add sum more)) (scene.unrecorded, sum)) := by
  induction xs generalizing scene sum with
  | nil => exact ⟨rfl, h⟩
  | cons x rest ih =>
    obtain ⟨hplain, horderly⟩ := hfg x h
    rw [List.foldl_cons, List.foldl_cons]
    dsimp only
    rw [hplain]
    exact ih horderly _

theorem faithful_bindEvent (hc : client.Twin plain) (h : scene.page.Orderly) (node : NodeId) (view : Option View)
    (event : String × List Action) :
    Faithful (client.bindEvent node view scene event) (plain.bindEvent node view scene.unrecorded event) := by
  obtain ⟨eventType, actions⟩ := event
  -- neither marks nor listeners are part of the document
  have hdocument : (MemoryPage.claim scene.page.base node eventType).2.document = scene.page.base.document := by
    unfold MemoryPage.claim
    split <;> rfl
  have hclaim : scene.claim node eventType = (⟨{ scene.page with base :=
      (MemoryPage.claim scene.page.base node eventType).2 }, scene.notices ++ []⟩,
      (MemoryPage.claim scene.page.base node eventType).1) := rfl
  have hplain : scene.unrecorded.claim node eventType =
      (⟨(MemoryPage.claim scene.page.base node eventType).2, scene.notices ++ []⟩,
        (MemoryPage.claim scene.page.base node eventType).1) := rfl
  unfold bindEvent
  dsimp only
  rw [hclaim, hplain, hc.ref]
  generalize MemoryPage.claim scene.page.base node eventType = claimed at hdocument ⊢
  obtain ⟨fresh, base⟩ := claimed
  cases fresh with
  | false => exact ⟨rfl, h.withBase hdocument⟩
  | true =>
    let listener : Listener := { node, eventType, client := client.ref, view, actions }
    have hlisten : Page.listen { scene.page with base } listener =
        (MemoryPage.listen base listener).map fun base => { scene.page with base } := rfl
    have hbelow : Page.listen base listener = MemoryPage.listen base listener := rfl
    dsimp only
    rw [hlisten, hbelow]
    cases hl : MemoryPage.listen base listener with
    | error cause => exact ⟨rfl, h.withBase hdocument⟩
    | ok next =>
      obtain ⟨-, hnext⟩ := MemoryPage.allow_eq_ok_iff.1 hl
      obtain rfl := Except.ok.inj hnext
      exact ⟨rfl, h.withBase hdocument⟩

theorem faithful_bindEvents (hc : client.Twin plain) (h : scene.page.Orderly) (node : NodeId) (view : Option View)
    (events : List (String × List Action)) :
    Faithful (client.bindEvents node view scene events) (plain.bindEvents node view scene.unrecorded events) :=
  faithful_foldl (· + ·) (fun event h => faithful_bindEvent hc h node view event) h events 0

theorem faithful_bind (hc : client.Twin plain) (h : scene.page.Orderly) (node : NodeId) :
    Faithful (client.bind scene node) (plain.bind scene.unrecorded node) := by
  have hattribute : ∀ name, Page.attribute? scene.unrecorded.page node name = Page.attribute? scene.page node name :=
    fun _ => rfl
  have hview : ∀ names, Page.view? scene.unrecorded.page names node = Page.view? scene.page names node := fun _ => rfl
  unfold bind
  dsimp only
  rw [hc.settings, hattribute, hview]
  split
  · exact ⟨rfl, h⟩
  · split
    · exact ⟨rfl, h⟩
    · rename_i bindings _
      obtain ⟨hplain, horderly⟩ := faithful_bindEvents hc h node
        (Page.view? scene.page client.settings.vocabulary node) bindings.events
      rw [hplain]
      exact ⟨rfl, horderly⟩

theorem faithful_bindReporting (hc : client.Twin plain) (h : scene.page.Orderly) (node : NodeId) :
    Faithful (client.bindReporting scene node) (plain.bindReporting scene.unrecorded node) := by
  obtain ⟨hplain, horderly⟩ := faithful_bind hc h node
  unfold bindReporting
  rw [hplain]
  generalize client.bind scene node = out at horderly ⊢
  obtain ⟨next, result⟩ := out
  cases result with
  | error cause => exact ⟨rfl, horderly⟩
  | ok added => exact ⟨rfl, horderly⟩

private theorem faithful_declaringBelow (h : scene.page.Orderly) (marker : String) (root : NodeId) :
    Faithful (declaringBelow marker scene root) (declaringBelow marker scene.unrecorded root) := by
  have hquery : Page.query scene.unrecorded.page (some root) ("[" ++ marker ++ "]") =
      Page.query scene.page (some root) ("[" ++ marker ++ "]") := rfl
  unfold declaringBelow
  rw [hquery]
  cases Page.query scene.page (some root) ("[" ++ marker ++ "]") with
  | error cause => exact ⟨rfl, h⟩
  | ok found => exact ⟨rfl, h⟩

theorem faithful_declaringElements (h : scene.page.Orderly) (marker : String) (roots : List NodeId) :
    Faithful (declaringElements marker scene roots) (declaringElements marker scene.unrecorded roots) := by
  have houtermost : outermost scene.unrecorded.page roots = outermost scene.page roots := rfl
  unfold declaringElements
  rw [houtermost]
  exact faithful_foldl (· ++ ·) (fun root h => faithful_declaringBelow h marker root) h _ []

theorem faithful_scan (hc : client.Twin plain) (h : scene.page.Orderly) (roots : List NodeId) :
    Faithful (client.scan scene roots) (plain.scan scene.unrecorded roots) := by
  obtain ⟨hplain, horderly⟩ := faithful_declaringElements h client.settings.vocabulary.events roots
  unfold scan
  rw [hc.settings, hplain]
  exact faithful_foldl (· + ·) (fun node h => faithful_bindReporting hc h node) horderly _ 0

theorem records_bindInserted (hc : client.Twin plain) (h : scene.page.Orderly) (outcome : PatchOutcome) :
    (client.bindInserted scene outcome).Records (plain.bindInserted scene.unrecorded outcome) :=
  (faithful_scan hc h outcome.toBind).records

/-! ### Patches -/

theorem faithful_patch (hc : client.Twin plain) (h : scene.page.Orderly) (kind : PatchKind) (selector : String)
    (fragment : Option String) :
    Faithful (client.patch scene kind selector fragment) (plain.patch scene.unrecorded kind selector fragment) := by
  obtain ⟨hplain, horderly⟩ := PageBindings.faithful_patch h kind selector fragment
  unfold patch
  rw [hplain]
  generalize PageBindings.patch kind selector fragment scene = out at horderly ⊢
  obtain ⟨next, result⟩ := out
  cases result with
  | error cause => exact ⟨rfl, horderly⟩
  | ok outcome => exact (records_bindInserted hc horderly outcome).faithful _

theorem records_patchReporting (hc : client.Twin plain) (h : scene.page.Orderly) (kind : PatchKind)
    (selector : String) (fragment : Option String) :
    (client.patchReporting scene kind selector fragment).Records
      (plain.patchReporting scene.unrecorded kind selector fragment) := by
  obtain ⟨hplain, horderly⟩ := faithful_patch hc h kind selector fragment
  unfold patchReporting
  rw [hplain]
  generalize client.patch scene kind selector fragment = out at horderly ⊢
  obtain ⟨next, result⟩ := out
  cases result with
  | error cause => exact ⟨rfl, horderly⟩
  | ok outcome => exact ⟨rfl, horderly⟩

/-- What is found after an element was made was there before. -/
private theorem lt_size_of_found {page next : MemoryPage} (hf : page.document.Forest) {html selector : String}
    {element : Option NodeId} (hc : Page.create page html = .ok (element, next))
    {target : NodeId} {rest : List NodeId}
    (hfound : Page.query next none selector = .ok (target :: rest)) : target < page.document.size := by
  obtain ⟨-, -, handedOut, rfl⟩ := MemoryPage.create_eq_ok hc
  have hread := (Document.grows_read page.document html).forest hf
  have habove := attached_of_mem_query hread hfound List.mem_cons_self
  exact (Document.attached_read hf habove).lt_size hf.root_lt_size

theorem faithful_swapPushed (hc : client.Twin plain) (h : scene.page.Orderly) (html : String) :
    Faithful (client.swapPushed scene html) (plain.swapPushed scene.unrecorded html) := by
  have hbelow : Page.create scene.unrecorded.page html = Page.create scene.page.base html := rfl
  unfold swapPushed
  dsimp only
  rw [hc.settings, RecordingPage.create_eq, hbelow]
  cases hmade : Page.create scene.page.base html with
  | error cause => exact ⟨rfl, h⟩
  | ok made =>
    obtain ⟨element, base⟩ := made
    have horderly := h.create hmade
    cases element with
    | none => exact ⟨rfl, horderly⟩
    | some e =>
      have hattribute : ∀ name, Page.attribute? (scene.page.become none base) e name = Page.attribute? base e name :=
        fun _ => rfl
      have hquery : ∀ selector,
          Page.query (scene.page.become none base) none selector = Page.query base none selector :=
        fun _ => rfl
      dsimp only [Except.map]
      rw [hattribute]
      split
      · exact ⟨rfl, horderly⟩
      · rw [hquery]
        split
        · exact ⟨rfl, horderly⟩
        · exact ⟨rfl, horderly⟩
        · rename_i target _ hfound
          have hinsert : insertElement .swap (scene.page.become none base) target e = _ :=
            insertElement_recording _ rfl target e
          have hbase : (scene.page.become none base).base = base := rfl
          have ht : target < scene.page.base.document.size := lt_size_of_found h.present hmade hfound
          rw [hinsert, hbase]
          cases hput : insertElement .swap base target e with
          | error cause => exact ⟨rfl, horderly⟩
          | ok next =>
            have hnext := h.insertElement rfl ht hmade hput
            exact Scene.Records.faithful (records_bindInserted hc (by exact hnext) ⟨.swap, [e]⟩) _

/-! ### Actions -/

theorem records_request (hc : client.Twin plain) (h : scene.page.Orderly) (node : Option NodeId) (eventType : String)
    (action : Action) (endpoint : Endpoint) (target : String) :
    (client.request node eventType scene action endpoint target).Records
      (plain.request node eventType scene.unrecorded action endpoint target) := by
  have hresolve : plain.resolvers.resolve scene.unrecorded.page endpoint.parameters =
      client.resolvers.resolve scene.page endpoint.parameters := hc.resolvers.resolve_eq _ _
  unfold request
  rw [hresolve, hc.settings, hc.id, hc.ref]
  split
  · exact ⟨rfl, h⟩
  · rename_i parameters _
    dsimp only
    have hsend : ∀ request errand, Page.send scene.page request errand =
        (Page.send scene.page.base request errand).map fun base => { scene.page with base } := fun _ _ => rfl
    have hbelow : scene.unrecorded.page = scene.page.base := rfl
    rw [hsend, hbelow]
    generalize Request.forEndpoint client.settings client.id endpoint.path parameters = request
    cases hsent : Page.send scene.page.base request { client := client.ref, kind := action.kind, target } with
    | error cause => exact ⟨rfl, h⟩
    | ok next =>
      obtain ⟨-, rfl⟩ := MemoryPage.send_eq_ok hsent
      exact ⟨rfl, h.withBase rfl⟩

theorem records_runAction (hc : client.Twin plain) (h : scene.page.Orderly) (node : Option NodeId)
    (eventType : String) (view : Option View) (action : Action) :
    (client.runAction node eventType view scene action).Records
      (plain.runAction node eventType view scene.unrecorded action) := by
  unfold runAction
  rw [hc.settings]
  split
  · exact ⟨rfl, h⟩
  · split
    · exact records_patchReporting hc h _ _ _
    · exact records_request hc h _ _ _ _ _

theorem records_run (hc : client.Twin plain) (h : scene.page.Orderly) (node : Option NodeId) (eventType : String)
    (view : Option View) (actions : List Action) :
    (client.run node eventType view scene actions).Records
      (plain.run node eventType view scene.unrecorded actions) := by
  unfold run
  induction actions generalizing scene with
  | nil => exact ⟨rfl, h⟩
  | cons action rest ih =>
    obtain ⟨hplain, horderly⟩ := records_runAction hc h node eventType view action
    rw [List.foldl_cons, List.foldl_cons, hplain]
    exact ih horderly

theorem records_complete (hc : client.Twin plain) (h : scene.page.Orderly) (errand : Errand) (outcome : Outcome) :
    (client.complete scene errand outcome).Records (plain.complete scene.unrecorded errand outcome) := by
  unfold complete
  split
  · exact ⟨rfl, h⟩
  · split
    · exact records_patchReporting hc h _ _ _
    · exact ⟨rfl, h⟩

end Client

end PageBindings
