import PageBindings.Proofs.Client.Recording
import PageBindings.Proofs.World.Change

/-!
# Worlds with a record

Two worlds are twins if they differ in nothing but that the page of the first one keeps a record, which is orderly
(`World.Twin`).  They stay twins whatever happens in both: an event (`Twin.dispatch`), a response (`Twin.complete`) or
a signal of a stream (`Twin.hear`), clients that come, go, start and open and close their channels.
-/

namespace PageBindings.World

/-- The worlds have twins for clients, and the same page apart from an orderly record. -/
structure Twin (world : World RecordingPage) (plain : World MemoryPage) : Prop where
  scene : world.toScene.Records plain.toScene
  length : plain.clients.length = world.clients.length
  client? (ref : ClientRef) : Option.Rel Client.Twin (world.client? ref) (plain.client? ref)

namespace Twin

variable {world : World RecordingPage} {plain : World MemoryPage} {client : Client RecordingPage}
  {other : Client MemoryPage}

theorem page (h : world.Twin plain) : plain.page = world.page.base :=
  congrArg Scene.page h.scene.plain_eq

theorem orderly (h : world.Twin plain) : world.page.Orderly :=
  h.scene.orderly

theorem withScene (h : world.Twin plain) {scene : Scene RecordingPage} {scene' : Scene MemoryPage}
    (hscene : scene.Records scene') : (world.withScene scene).Twin (plain.withScene scene') :=
  ⟨hscene, h.length, h.client?⟩

theorem note (h : world.Twin plain) (notice : Notice) :
    (world.withScene (world.note notice)).Twin (plain.withScene (plain.note notice)) := by
  refine h.withScene ⟨?_, h.orderly⟩
  rw [h.scene.plain_eq]
  rfl

theorem withPage (h : world.Twin plain) {page : RecordingPage} (orderly : page.Orderly) :
    Twin { world with page } { plain with page := page.base } where
  scene := ⟨congrArg (Scene.mk page.base) (congrArg Scene.notices h.scene.plain_eq), orderly⟩
  length := h.length
  client? := h.client?

theorem withNotices (h : world.Twin plain) (notices : List Notice) :
    Twin { world with notices } { plain with notices } where
  scene := ⟨congrArg (Scene.mk · notices) h.page, h.orderly⟩
  length := h.length
  client? := h.client?

/-- What the pages have besides their documents may change in the same way. -/
theorem withBase (h : world.Twin plain) (base : MemoryPage) (hdocument : base.document = world.page.base.document) :
    Twin { world with page := { world.page with base } } { plain with page := base } :=
  h.withPage (h.orderly.withBase hdocument)

/-! ### Clients -/

theorem client_cases (h : world.Twin plain) (ref : ClientRef) :
    (world.client? ref = none ∧ plain.client? ref = none) ∨
      ∃ client other, world.client? ref = some client ∧ plain.client? ref = some other ∧ client.Twin other := by
  have hclient := h.client? ref
  generalize world.client? ref = found at hclient ⊢
  generalize plain.client? ref = found' at hclient ⊢
  cases hclient with
  | none => exact .inl ⟨rfl, rfl⟩
  | some hc => exact .inr ⟨_, _, rfl, rfl, hc⟩

/-- The same client is replaced or taken away. -/
private theorem set (h : world.Twin plain) (ref : ClientRef) {entry : Option (Client RecordingPage)}
    {entry' : Option (Client MemoryPage)} (hentry : Option.Rel Client.Twin entry entry') :
    Twin { world with clients := world.clients.set ref entry }
      { plain with clients := plain.clients.set ref entry' } where
  scene := h.scene
  length := by rw [List.length_set, List.length_set, h.length]
  client? asked := by
    rw [client?_of_set world rfl, client?_of_set plain rfl, h.length]
    split
    · split
      · exact hentry
      · exact .none
    · exact h.client? asked

theorem setChannel (h : world.Twin plain) (hc : client.Twin other) (channel : PushChannel) :
    (world.setChannel client channel).Twin (plain.setChannel other channel) := by
  unfold World.setChannel
  rw [hc.ref]
  exact h.set client.ref (.some ⟨rfl, hc.settings, hc.id, rfl, hc.resolvers⟩)

theorem drop (h : world.Twin plain) (ref : ClientRef) : (world.drop ref).Twin (plain.drop ref) :=
  h.set ref .none

theorem addClient (h : world.Twin plain) (settings : Settings) {resolvers : Resolvers RecordingPage}
    {resolvers' : Resolvers MemoryPage} (hresolvers : resolvers.Twin resolvers') :
    (world.addClient settings resolvers).1.Twin (plain.addClient settings resolvers').1 where
  scene := by
    unfold World.addClient
    rw [h.page]
    exact (h.withBase (Page.freshClientId world.page.base).2 rfl).scene
  length := by
    show (plain.clients ++ [_]).length = (world.clients ++ [_]).length
    rw [List.length_append, List.length_append, h.length]
    rfl
  client? asked := by
    rw [client?_addClient, client?_addClient, h.length]
    split
    · refine .some ⟨h.length, rfl, ?_, rfl, hresolvers⟩
      unfold World.addClient
      rw [h.page]
      rfl
    · exact h.client? asked

/-! ### Clients at work -/

theorem notify (h : world.Twin plain) (listener : Listener) :
    (world.notify listener).1.Twin (plain.notify listener).1 := by
  have htarget : Page.currentTarget? plain.page listener.node = Page.currentTarget? world.page listener.node := by
    rw [h.page]
    rfl
  unfold World.notify
  rcases h.client_cases listener.client with ⟨hnone, hnone'⟩ | ⟨client, other, hlive, hlive', hc⟩
  · rw [hnone, hnone']
    exact h.note _
  · rw [hlive, hlive', htarget, h.scene.plain_eq]
    exact h.withScene (Client.records_run hc h.orderly _ _ _ _)

theorem dispatch (h : world.Twin plain) (node : NodeId) (eventType : String) :
    (world.dispatch node eventType).1.Twin (plain.dispatch node eventType).1 := by
  have hlisteners : Page.listeners plain.page node eventType = Page.listeners world.page node eventType := by
    rw [h.page]
    rfl
  unfold World.dispatch
  rw [hlisteners]
  generalize Page.listeners world.page node eventType = listeners
  suffices ∀ (prevented prevented' : Bool) (world : World RecordingPage) (plain : World MemoryPage),
      world.Twin plain →
      (listeners.foldl (fun (world, prevented) listener =>
        let (world, prevents) := world.notify listener
        (world, prevented || prevents)) (world, prevented)).1.Twin
      (listeners.foldl (fun (world, prevented) listener =>
        let (world, prevents) := world.notify listener
        (world, prevented || prevents)) (plain, prevented')).1 from this false false world plain h
  induction listeners with
  | nil => exact fun _ _ _ _ h => h
  | cons listener rest ih => exact fun _ _ _ _ h => ih _ _ _ _ (h.notify listener)

theorem complete (h : world.Twin plain) (errand : Errand) (outcome : Outcome) :
    (world.complete errand outcome).Twin (plain.complete errand outcome) := by
  unfold World.complete
  rcases h.client_cases errand.client with ⟨hnone, hnone'⟩ | ⟨client, other, hlive, hlive', hc⟩
  · rw [hnone, hnone']
    exact h
  · rw [hlive, hlive', h.scene.plain_eq]
    exact h.withScene (Client.records_complete hc h.orderly errand outcome)

/-! ### Push channels -/

theorem connect (h : world.Twin plain) (hc : client.Twin other) :
    (world.connect client).1.Twin (plain.connect other).1 ∧ (plain.connect other).2 = (world.connect client).2 := by
  unfold World.connect
  rw [hc.settings, hc.channel, hc.ref]
  split
  · exact ⟨h, rfl⟩
  · rename_i url _
    split
    · rw [RecordingPage.subscribe_eq, h.page]
      cases hopened : Page.subscribe world.page.base url client.ref with
      | error cause => exact ⟨h.setChannel hc client.channel.afterFailure, rfl⟩
      | ok made =>
        obtain ⟨stream, base⟩ := made
        obtain ⟨-, hbase⟩ := MemoryPage.subscribe_eq_ok hopened
        have hdocument : base.document = world.page.base.document := by rw [hbase]
        exact ⟨(h.withBase base hdocument).setChannel hc (.connecting stream), rfl⟩
    · exact ⟨h.note _, rfl⟩

theorem close (h : world.Twin plain) (hc : client.Twin other) :
    (world.close client).Twin (plain.close other) := by
  unfold World.close
  rw [hc.channel]
  split
  · rename_i stream _
    rw [h.page]
    exact (h.withBase (Page.unsubscribe world.page.base stream) rfl).setChannel hc .closed
  · exact h.setChannel hc .closed

theorem receive (h : world.Twin plain) (hc : client.Twin other) (data : String) :
    (world.receive client data).Twin (plain.receive other data) := by
  unfold World.receive
  rw [hc.settings]
  split
  · exact h
  · exact h.close hc
  · rename_i html _
    obtain ⟨hplain, horderly⟩ := Client.faithful_swapPushed hc h.orderly html
    rw [h.scene.plain_eq, hplain]
    generalize client.swapPushed world.toScene html = out at horderly ⊢
    obtain ⟨scene, result⟩ := out
    cases result with
    | error cause => exact h.withScene ⟨rfl, horderly⟩
    | ok outcome => exact h.withScene ⟨rfl, horderly⟩

theorem hear (h : world.Twin plain) (owner : ClientRef) (signal : StreamSignal) :
    (world.hear owner signal).Twin (plain.hear owner signal) := by
  unfold World.hear
  rcases h.client_cases owner with ⟨hnone, hnone'⟩ | ⟨client, other, hlive, hlive', hc⟩
  · rw [hnone, hnone']
    exact h
  · rw [hlive, hlive']
    dsimp only
    rw [hc.channel]
    split
    · exact h
    · cases signal with
      | opening => exact h.setChannel hc _
      | failure detail => exact (h.note _).close hc
      | message data => exact h.receive hc data

theorem start (h : world.Twin plain) (hc : client.Twin other) :
    (world.start client).1.Twin (plain.start other).1 := by
  have hquery : Page.query plain.page none client.settings.rootSelector =
      Page.query world.page none client.settings.rootSelector := by
    rw [h.page]
    rfl
  unfold World.start
  rw [hc.settings, hquery]
  split
  · exact h
  · rename_i roots _
    obtain ⟨hplain, horderly⟩ := Client.faithful_scan hc h.orderly roots
    rw [h.scene.plain_eq, hplain]
    dsimp only
    have hscene : (client.scan world.toScene roots).1.Records (client.scan world.toScene roots).1.unrecorded :=
      ⟨rfl, horderly⟩
    have hscanned := h.withScene hscene
    split
    · obtain ⟨hconnected, hresult⟩ := hscanned.connect hc
      generalize (world.withScene (client.scan world.toScene roots).1).connect client = out at hconnected hresult ⊢
      generalize (plain.withScene (client.scan world.toScene roots).1.unrecorded).connect other = out'
        at hconnected hresult ⊢
      obtain ⟨next, result⟩ := out
      obtain ⟨next', result'⟩ := out'
      obtain rfl : result' = result := hresult
      cases result' with
      | error cause => exact hconnected.note _
      | ok => exact hconnected
    · exact hscanned

end Twin

end PageBindings.World
