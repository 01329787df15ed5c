import PageBindings.Proofs.Client.Healing
import PageBindings.Proofs.World.Change

/-!
# Worlds that refuse listeners

Two worlds with the same clients, of which only one is there, may differ in that the page of the first refuses
listeners (`World.Behind`).  It then stays behind in what is bound, whatever the client is asked to do in both:
deliver a response (`Behind.complete`) or a signal of its stream (`Behind.hear`), start, open or close its channel.
-/

namespace PageBindings.World

open Relation (ReflTransGen)

variable {world world' : World MemoryPage} {client other : Client MemoryPage} {known : MemoryPage} {ref : ClientRef}

/-- The worlds have the same clients, only one of which is there, and the page of the first world stays behind. -/
structure Behind (client : Client MemoryPage) (known : MemoryPage) (world world' : World MemoryPage) : Prop where
  clients : world'.clients = world.clients
  live : ∃ other, world.client? client.ref = some other
  sole {ref : ClientRef} {other : Client MemoryPage} (live : world.client? ref = some other) :
    ref = client.ref ∧ other.ref = client.ref ∧ other.settings = client.settings
  page : client.Behind known world.page world'.page

namespace Behind

theorem client? (h : Behind client known world world') (ref : ClientRef) :
    world'.client? ref = world.client? ref := by
  unfold World.client?
  rw [h.clients]

/-- The client that is there may have moved its channel, which makes no difference. -/
theorem congr (h : Behind client known world world') (live : world.client? ref = some other)
    {page page' : MemoryPage} :
    other.Behind known page page' ↔ client.Behind known page page' := by
  obtain ⟨-, href, hsettings⟩ := h.sole live
  exact ⟨fun hpage => hpage.congr href.symm hsettings.symm, fun hpage => hpage.congr href hsettings⟩

theorem withPage (h : Behind client known world world') {page page' : MemoryPage}
    (hpage : client.Behind known page page') (notices notices' : List Notice) :
    Behind client known { world with page, notices } { world' with page := page', notices := notices' } :=
  ⟨h.clients, h.live, h.sole, hpage⟩

/-- Notices make no difference. -/
theorem withNotices (h : Behind client known world world') (notices notices' : List Notice) :
    Behind client known { world with notices } { world' with notices := notices' } :=
  h.withPage h.page notices notices'

theorem setChannel (h : Behind client known world world') (live : world.client? ref = some other)
    (channel : PushChannel) :
    Behind client known (world.setChannel other channel) (world'.setChannel other channel) := by
  obtain ⟨href, hother, hsettings⟩ := h.sole live
  have hown : world.client? other.ref = some other := by rw [hother, ← href, live]
  refine ⟨by rw [World.setChannel, World.setChannel, h.clients], ⟨{ other with channel }, ?_⟩,
    fun hnext => ?_, h.page⟩
  · rw [client?_setChannel hown, if_pos hother]
  · rw [client?_setChannel hown] at hnext
    split at hnext
    · rename_i heq
      obtain rfl := Option.some.inj hnext
      exact ⟨heq.symm.trans hother, hother, hsettings⟩
    · exact h.sole hnext

/-! ### Clients at work -/

theorem updates (h : Behind client known world world') (live : world.client? ref = some other)
    {scene scene' : Scene MemoryPage} (hu : other.Updates world.page scene.page)
    (hu' : other.Updates world'.page scene'.page) (hscene : scene.page.Resembles scene'.page) :
    Behind client known (world.withScene scene) (world'.withScene scene') :=
  h.withPage ((h.congr live).1 (((h.congr live).2 h.page).updates hu hu' hscene)) scene.notices scene'.notices

theorem binds (h : Behind client known world world') (live : world.client? ref = some other)
    {scene scene' : Scene MemoryPage} (hb : ReflTransGen other.Binds world.page scene.page)
    (hb' : ReflTransGen other.Binds world'.page scene'.page) :
    Behind client known (world.withScene scene) (world'.withScene scene') :=
  h.updates live (Client.updates_of_binds hb) (Client.updates_of_binds hb')
    (Client.resembles_of_binds h.page.resembles hb hb')

theorem complete (h : Behind client known world world') (errand : Errand) (outcome : Outcome) :
    Behind client known (world.complete errand outcome) (world'.complete errand outcome) := by
  unfold World.complete
  rw [h.client?]
  split
  · exact h
  · rename_i other live
    exact h.updates live (other.updates_complete _ errand outcome) (other.updates_complete _ errand outcome)
      (other.resembles_complete h.page.resembles errand outcome)

/-! ### Push channels -/

theorem connect (h : Behind client known world world') (live : world.client? ref = some other) :
    Behind client known (world.connect other).1 (world'.connect other).1 := by
  unfold World.connect
  split
  · exact h
  · rename_i url _
    split
    · have hopened : Both (fun made made' => made'.1 = made.1 ∧ client.Behind known made.2 made'.2)
          (Page.subscribe world.page url other.ref) (Page.subscribe world'.page url other.ref) := by
        refine h.page.resembles.allow (by decide) (.ok ⟨?_, ?_⟩)
        · rw [h.page.streams]
        · exact h.page.withOthers h.page.exchanges (by rw [h.page.streams]) world.page.closed world'.page.closed
      generalize Page.subscribe world.page url other.ref = made at hopened ⊢
      generalize Page.subscribe world'.page url other.ref = made' at hopened ⊢
      cases hopened with
      | error cause => exact h.setChannel live other.channel.afterFailure
      | @ok made made' hmade =>
        obtain ⟨stream, page⟩ := made
        obtain ⟨stream', page'⟩ := made'
        obtain ⟨rfl, hpage⟩ := hmade
        exact (h.withPage hpage _ _).setChannel (by exact live) _
    · exact h.withNotices _ _

theorem close (h : Behind client known world world') (live : world.client? ref = some other) :
    Behind client known (world.close other) (world'.close other) := by
  unfold World.close
  split
  · have hpage := h.page.withOthers h.page.exchanges h.page.streams
    exact (h.withPage (hpage _ _) _ _).setChannel (by exact live) .closed
  · exact h.setChannel live .closed

theorem receive (h : Behind client known world world') (live : world.client? ref = some other) (data : String) :
    Behind client known (world.receive other data) (world'.receive other data) := by
  unfold World.receive
  split
  · exact h
  · exact h.close live
  · rename_i html _
    have hswapped := h.updates live (other.updates_swapPushed world.toScene html)
      (other.updates_swapPushed world'.toScene html) (other.resembles_swapPushed h.page.resembles html)
    cases hout : other.swapPushed world.toScene html with
    | mk scene result =>
      cases hout' : other.swapPushed world'.toScene html with
      | mk scene' result' =>
        rw [hout, hout'] at hswapped
        cases result <;> cases result' <;> exact hswapped.withNotices _ _

theorem hear (h : Behind client known world world') (owner : ClientRef) (signal : StreamSignal) :
    Behind client known (world.hear owner signal) (world'.hear owner signal) := by
  unfold World.hear
  rw [h.client?]
  split
  · exact h
  · rename_i other live
    split
    · exact h
    · split
      · exact h.setChannel live _
      · exact (h.withNotices _ _).close (by exact live)
      · exact h.receive live _

theorem start (h : Behind client known world world') (live : world.client? ref = some other) :
    Behind client known (world.start other).1 (world'.start other).1 := by
  unfold World.start
  rw [h.page.resembles.query]
  split
  · exact h
  · rename_i roots _
    have hscanned := h.binds live (other.binds_scan world.toScene roots) (other.binds_scan world'.toScene roots)
    dsimp only
    split
    · have hconnected := hscanned.connect (by exact live)
      cases hout : (world.withScene (other.scan world.toScene roots).1).connect other with
      | mk next result =>
        cases hout' : (world'.withScene (other.scan world'.toScene roots).1).connect other with
        | mk next' result' =>
          rw [hout, hout'] at hconnected
          cases result <;> cases result' <;> exact hconnected.withNotices _ _
    · exact hscanned

end Behind

end PageBindings.World
