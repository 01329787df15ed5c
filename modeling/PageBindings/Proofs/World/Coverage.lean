import PageBindings.Proofs.Client.Coverage
import PageBindings.Proofs.World.Change

/-!
# Worlds in which all is bound

If all clients go by the same names, and what is declared in the document by these names is all bound
(`World.Covered`), it stays so whatever a client is asked to do: run a listener (`Covered.dispatch`), deliver a
response (`Covered.complete`) or a signal of its stream (`Covered.hear`).  Starting a client makes it so, if its roots
cover the document (`Covered.start`).
-/

namespace PageBindings.World

variable {world : World MemoryPage} {client : Client MemoryPage} {names : Vocabulary}

/-- No client is gone, and all go by the same names. -/
def Unanimous (world : World MemoryPage) (names : Vocabulary) : Prop :=
  ∀ entry ∈ world.clients, ∃ client, entry = some client ∧ client.settings.vocabulary = names

/-- All clients go by the same names, and what is declared in the document by these is all bound. -/
structure Covered (world : World MemoryPage) (names : Vocabulary) : Prop where
  unanimous : world.Unanimous names
  covers : world.page.Covers names

theorem Unanimous.client? (h : world.Unanimous names) {ref : ClientRef} (live : world.client? ref = some client) :
    client.settings.vocabulary = names := by
  obtain ⟨other, hother, hnames⟩ := h _ (List.mem_of_getElem? (Option.join_eq_some_iff.1 live))
  exact Option.some.inj hother ▸ hnames

theorem Unanimous.exists_client (h : world.Unanimous names) {ref : ClientRef} (hlt : ref < world.clients.length) :
    ∃ client, world.client? ref = some client := by
  obtain ⟨client, hclient, -⟩ := h _ (List.getElem_mem hlt)
  refine ⟨client, ?_⟩
  rw [World.client?, List.getElem?_eq_getElem hlt, hclient]
  rfl

theorem Unanimous.setChannel (h : world.Unanimous names) (hc : client.settings.vocabulary = names)
    (channel : PushChannel) : (world.setChannel client channel).Unanimous names := by
  intro entry hentry
  rcases List.mem_or_eq_of_mem_set hentry with hold | rfl
  · exact h entry hold
  · exact ⟨_, rfl, hc⟩

theorem Covered.withScene (h : world.Covered names) {scene : Scene MemoryPage} (hs : scene.page.Covers names) :
    (world.withScene scene).Covered names :=
  ⟨h.unanimous, hs⟩

/-! ### Clients at work -/

theorem Covered.notify (h : world.Covered names) (listener : Listener) : (world.notify listener).1.Covered names := by
  unfold World.notify
  split
  · exact h.withScene h.covers
  · rename_i client live
    obtain rfl := h.unanimous.client? live
    exact h.withScene (Client.covers_run h.covers _ _ _ _)

theorem Covered.dispatch (h : world.Covered names) (node : NodeId) (eventType : String) :
    (world.dispatch node eventType).1.Covered names :=
  dispatch_of (P := fun world => world.Covered names) (fun _ listener h => h.notify listener) h node eventType

theorem Covered.complete (h : world.Covered names) (errand : Errand) (outcome : Outcome) :
    (world.complete errand outcome).Covered names := by
  unfold World.complete
  split
  · exact h
  · rename_i client live
    obtain rfl := h.unanimous.client? live
    exact h.withScene (Client.covers_complete h.covers errand outcome)

/-! ### Push channels -/

theorem Covered.connect (h : world.Covered names) (hc : client.settings.vocabulary = names) :
    (world.connect client).1.Covered names := by
  unfold World.connect
  split
  · exact h
  · split
    · split
      · rename_i stream page opened
        obtain ⟨-, rfl⟩ := MemoryPage.subscribe_eq_ok opened
        exact ⟨Unanimous.setChannel (by exact h.unanimous) hc _, h.covers.congr rfl rfl rfl⟩
      · exact ⟨h.unanimous.setChannel hc _, h.covers⟩
    · exact h.withScene h.covers

theorem Covered.close (h : world.Covered names) (hc : client.settings.vocabulary = names) :
    (world.close client).Covered names := by
  unfold World.close
  split
  · exact ⟨Unanimous.setChannel (by exact h.unanimous) hc _, h.covers.congr rfl rfl rfl⟩
  · exact ⟨h.unanimous.setChannel hc _, h.covers⟩

theorem Covered.receive (h : world.Covered names) (hc : client.settings.vocabulary = names) (data : String) :
    (world.receive client data).Covered names := by
  subst hc
  unfold World.receive
  split
  · exact h
  · exact h.close rfl
  · rename_i html _
    have hswap := Client.covers_swapPushed h.covers html
    split
    · rename_i heq
      rw [heq] at hswap
      exact h.withScene hswap
    · rename_i heq
      rw [heq] at hswap
      exact h.withScene hswap

theorem Covered.hear (h : world.Covered names) (owner : ClientRef) (signal : StreamSignal) :
    (world.hear owner signal).Covered names := by
  unfold World.hear
  split
  · exact h
  · rename_i client live
    have hc := h.unanimous.client? live
    split
    · exact h
    · split
      · exact ⟨h.unanimous.setChannel hc _, h.covers⟩
      · exact Covered.close ⟨h.unanimous, h.covers⟩ hc
      · exact h.receive hc _

/-- What is needed of a start is that all is bound once the roots of the client were scanned. -/
theorem covered_start (hu : world.Unanimous names) (hc : client.settings.vocabulary = names) {roots : List NodeId}
    (hroots : Page.query world.page none client.settings.rootSelector = .ok roots)
    (hscan : (client.scan world.toScene roots).1.page.Covers names) : (world.start client).1.Covered names := by
  have hbound : (world.withScene (client.scan world.toScene roots).1).Covered names := ⟨hu, hscan⟩
  unfold World.start
  rw [hroots]
  dsimp only
  split
  · have hconnect := hbound.connect hc
    split
    · rename_i heq
      rwa [heq] at hconnect
    · rename_i heq
      rw [heq] at hconnect
      exact hconnect.withScene hconnect.covers
  · exact hbound

theorem Covered.start (h : world.Covered names) (hc : client.settings.vocabulary = names) :
    (world.start client).1.Covered names := by
  cases hroots : Page.query world.page none client.settings.rootSelector with
  | ok roots => exact covered_start h.unanimous hc hroots (h.covers.binds (client.binds_scan world.toScene roots))
  | error cause =>
    unfold World.start
    rw [hroots]
    exact h

end PageBindings.World
