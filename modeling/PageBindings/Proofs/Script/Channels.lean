import PageBindings.Proofs.Script.Reachable
import PageBindings.Proofs.World.Channels

/-!
# One stream for each client

In a reachable world streams and channels are in order, and each step moves the channel of the client that it is
addressed to, if any, by one state towards its end (`channels_in_order`).  A stream is closed when its client gives it
up, once and for all, and what it brings afterwards is not heard.
-/

namespace PageBindings.Script

open Relation (ReflTransGen)

variable {world world' : World MemoryPage} {client : Client MemoryPage}

/-! ### Addressees -/

/-- The client that a step is addressed to: for a signal of a stream, the one that opened the stream. -/
def MemoryStep.addressee? (world : World MemoryPage) : MemoryStep → Option ClientRef
  | .withClient ref _ | .dropClient ref => some ref
  | .stream _ => world.page.streams.getLast?.map MemoryPage.Stream.owner
  | .addClient .. | .onPage _ | .respond .. | .refuse .. => none

private theorem quiet_withNode (ref : NodeRef) {go : NodeId → Result MemoryPage}
    (hgo : ∀ node, world.Quiet (go node).1) : world.Quiet (withNode world ref go).1 :=
  withNode_of (P := world.Quiet) ref (.refl world) hgo

private theorem quiet_withNodes (refs : List NodeRef) {go : List NodeId → Result MemoryPage}
    (hgo : ∀ nodes, world.Quiet (go nodes).1) : world.Quiet (withNodes world refs go).1 :=
  withNodes_of (P := world.Quiet) refs (.refl world) hgo

theorem ClientStep.turn (live : world.client? client.ref = some client) (sound : client.channel.IsSound)
    (step : ClientStep) : world.Turn (step.perform world client).1 (some client.ref) := by
  cases step with
  | start =>
    rw [fst_start]
    exact World.turn_start live sound
  | scan nodes =>
    refine .quiet _ (quiet_withNodes nodes fun nodes => ?_)
    exact World.quiet_withScene (Client.changes_of_binds (client.binds_scan _ nodes))
  | bind node =>
    rw [fst_bind]
    refine .quiet _ (quiet_withNode node fun node => ?_)
    exact World.quiet_withScene (Client.changes_of_binds (client.binds_bind _ node))
  | patch kind target fragment =>
    rw [fst_patch]
    exact .quiet _ (World.quiet_withScene (client.changes_patch _ kind target fragment))
  | swapPushed html =>
    rw [fst_swapPushed]
    exact .quiet _ (World.quiet_withScene (client.changes_swapPushed _ html))
  | connect =>
    rw [fst_connect]
    exact World.turn_connect live sound
  | close => exact World.turn_close live sound
  | view node => exact .quiet _ (quiet_withNode node fun node => .refl world)

/-- What edits the document leaves clients and streams alone. -/
private theorem quiet_of_edited {scene : Scene MemoryPage} (h : world.page.Edited scene.page) :
    world.Quiet (world.withScene scene) := by
  obtain ⟨page, notices⟩ := scene
  obtain ⟨document, handedOut, -, rfl⟩ := h
  exact ⟨rfl, rfl, rfl⟩

theorem PageStep.quiet (step : PageStep) : world.Quiet (step.perform world).1 := by
  cases step with
  | dispatch node eventType => exact quiet_withNode node fun node => World.quiet_dispatch world node eventType
  | enter node value => exact quiet_withNode node fun node => ⟨rfl, rfl, rfl⟩
  | resolve added parameters =>
    simp only [perform]
    split <;> exact .refl world
  | patch kind target fragment =>
    have h := quiet_of_edited (edited_patch kind target fragment world.toScene)
    simp only [perform]
    split
    · rename_i heq
      rwa [heq] at h
    · rename_i heq
      rwa [heq] at h
  | patchNodes kind nodes fragment =>
    refine quiet_withNodes nodes fun nodes => ?_
    have h := quiet_of_edited (edited_patchElements kind fragment world.toScene nodes)
    split
    · rename_i heq
      rwa [heq] at h
    · rename_i heq
      rwa [heq] at h
  | insert kind target node =>
    refine quiet_withNode target fun target => quiet_withNode node fun node => ?_
    unfold afterChange
    split
    · rename_i page heq
      obtain ⟨document, -, rfl⟩ := MemoryPage.insertElement_eq_ok heq
      exact ⟨rfl, rfl, rfl⟩
    · exact .refl world
  | create html =>
    simp only [perform]
    split
    · rename_i node page heq
      obtain ⟨-, -, handedOut, rfl⟩ := MemoryPage.create_eq_ok heq
      exact ⟨rfl, rfl, rfl⟩
    · exact .refl world
  | find selector =>
    simp only [perform]
    split <;> exact .refl world
  | disjoint nodes => exact quiet_withNodes nodes fun nodes => .refl world
  | eventful nodes marker =>
    refine quiet_withNodes nodes fun nodes => quiet_of_edited ?_
    rw [page_declaringElements]
    exact .refl _
  | attributeOf node name => exact quiet_withNode node fun node => .refl world
  | isAttached node => exact quiet_withNode node fun node => .refl world
  | outline node => exact quiet_withNode node fun node => .refl world

theorem turn_addClient (world : World MemoryPage) (settings : Settings) (resolvers : Resolvers MemoryPage) :
    world.Turn (world.addClient settings resolvers).1 none :=
  .join rfl rfl rfl rfl

theorem MemoryStep.turn (ho : world.InOrder) (hn : world.Numbered) (step : MemoryStep) :
    world.Turn (step.perform world).1 (step.addressee? world) := by
  cases step with
  | addClient settings added =>
    simp only [perform]
    split
    · exact .quiet _ (.refl world)
    · exact turn_addClient world _ _
  | dropClient ref =>
    simp only [perform]
    split
    · exact .leave ref rfl rfl rfl
    · exact .quiet _ (.refl world)
  | withClient ref step =>
    simp only [perform]
    split
    · rename_i client hc
      obtain rfl := hn ref client hc
      exact step.turn hc (ho.sound hc)
    · exact .quiet _ (.refl world)
  | onPage step => exact .quiet _ step.quiet
  | respond ref outcome =>
    simp only [perform]
    split
    · exact .quiet _ (.refl world)
    · rename_i index errand _
      have hsettled : world.Quiet { world with page := { world.page with
          exchanges := Exchange.settle world.page.exchanges index } } := ⟨rfl, rfl, rfl⟩
      exact .quiet _ (hsettled.trans (World.quiet_complete _ _ outcome))
  | stream signal =>
    simp only [perform, addressee?]
    split
    · rename_i hnone
      exact .quiet _ (.refl world)
    · rename_i latest hlatest
      have opener : latest.owner ∈ world.page.streams.map MemoryPage.Stream.owner :=
        List.mem_map_of_mem (List.mem_of_getLast? hlatest)
      rw [hlatest]
      exact World.turn_hear ho hn opener signal
  | refuse capability off => exact .quiet _ ⟨rfl, rfl, rfl⟩

/-! ### Runs -/

theorem Next.turn (h : Next world world') (ho : world.InOrder) (hn : world.Numbered) :
    ∃ addressee, world.Turn world' addressee := by
  cases h with
  | perform step => exact ⟨_, step.turn ho hn⟩
  | join settings resolvers => exact ⟨_, turn_addClient world settings resolvers⟩
  | report => exact ⟨none, .quiet _ ⟨rfl, rfl, rfl⟩⟩

theorem inOrder_withBody (markup : String) : World.InOrder { page := MemoryPage.withBody markup } where
  sound live := by simp [World.client?] at live
  sole := List.nodup_nil
  known h := by simp [MemoryPage.withBody] at h
  once stream := by simp [MemoryPage.withBody]
  opened h := by simp [MemoryPage.withBody] at h
  idle live := by simp [World.client?] at live
  held live := by simp [World.client?] at live
  ended live := by simp [World.client?] at live

theorem Leads.inOrder (h : Leads world world') (hn : world.Numbered) (ho : world.InOrder) : world'.InOrder := by
  induction h with
  | refl => exact ho
  | tail hbefore hlast ih =>
    obtain ⟨addressee, hturn⟩ := hlast.turn ih (World.numbered_of_changes (Leads.changes hbefore hn) hn)
    exact hturn.inOrder ih

theorem Reachable.inOrder (h : Reachable world) : world.InOrder := by
  obtain ⟨markup, h⟩ := h
  exact Leads.inOrder h (sound_withBody markup).numbered (inOrder_withBody markup)

/-- The channel of a client that is still there has gone on from state to state, if at all. -/
theorem Leads.advances (h : Leads world world') (hn : world.Numbered) (ho : world.InOrder) {ref : ClientRef}
    {client client' : Client MemoryPage} (before : world.client? ref = some client)
    (after : world'.client? ref = some client') :
    ReflTransGen PushChannel.Advances client.channel client'.channel := by
  have hknown := World.lt_length_of_client? before
  induction h generalizing client' with
  | refl =>
    obtain rfl := Option.some.inj (before.symm.trans after)
    exact .refl
  | @tail middle last hbefore hlast ih =>
    have hmiddle : middle.Numbered := World.numbered_of_changes (Leads.changes hbefore hn) hn
    have hknown' := Nat.lt_of_lt_of_le hknown (Leads.later hbefore hn).length_le
    have hlater : middle.Later last := World.later_of_changes (hlast.changes hmiddle)
    obtain ⟨between, hbetween, -⟩ := hlater.client? hknown' after
    obtain ⟨addressee, hturn⟩ := hlast.turn (Leads.inOrder hbefore hn ho) hmiddle
    rcases hturn.steps.advances hbetween after with hsame | hadvances
    · exact hsame ▸ ih hbetween
    · exact (ih hbetween).tail hadvances

/-! ### The law -/

/-- A client that has closed its channel does not hear what its stream brings. -/
theorem hear_of_closed {ref : ClientRef} (live : world.client? ref = some client)
    (closed : client.channel.state = .closed) (signal : StreamSignal) : world.hear ref signal = world := by
  unfold World.hear
  rw [live]
  dsimp only
  rw [if_pos closed]

/-- How channels and streams stand in a world, and how they go on from there. -/
structure ChannelLaw (world : World MemoryPage) : Prop where
  inOrder : world.InOrder
  /-- A client holds a stream exactly while its channel is connecting or open. -/
  holds {ref : ClientRef} {client : Client MemoryPage} (live : world.client? ref = some client) :
    (∃ stream, client.channel.stream? = some stream) ↔
      client.channel.state = .connecting ∨ client.channel.state = .opened
  /-- A step moves the channel of the client that it is addressed to, if any, and by one state at most. -/
  step (step : MemoryStep) : world.Steps (step.perform world).1 (step.addressee? world)
  /-- A client that joins moves no channel. -/
  join (settings : Settings) (resolvers : Resolvers MemoryPage) :
    world.Steps (world.addClient settings resolvers).1 none
  /-- In the long run, too, a channel only goes on, and a closed one stays closed. -/
  run {later : World MemoryPage} (h : Leads world later) {ref : ClientRef} {client client' : Client MemoryPage}
    (before : world.client? ref = some client) (after : later.client? ref = some client') :
    ReflTransGen PushChannel.Advances client.channel client'.channel ∧
      (client.channel.state = .closed → client'.channel = client.channel)
  /-- Whatever a stream brings to a client that has closed its channel, nothing happens. -/
  deaf {ref : ClientRef} {client : Client MemoryPage} (live : world.client? ref = some client)
    (closed : client.channel.state = .closed) (signal : StreamSignal) :
    world.hear ref signal = world ∧
      ((MemoryStep.stream signal).addressee? world = some ref →
        (MemoryStep.perform world (.stream signal)).1 = world)

theorem channels_in_order (h : Reachable world) : ChannelLaw world where
  inOrder := h.inOrder
  holds live := h.inOrder.sound live
  step step := (step.turn h.inOrder h.sound.numbered).steps
  join settings resolvers := (turn_addClient world settings resolvers).steps
  run {later} hl {ref client client'} before after := by
    have hadvances := hl.advances h.sound.numbered h.inOrder before after
    refine ⟨hadvances, fun closed => ?_⟩
    rcases Relation.ReflTransGen.cases_head hadvances with hsame | ⟨next, hnext, -⟩
    · exact hsame.symm
    · exact absurd closed hnext.state_ne_closed
  deaf {ref client} live closed signal := by
    refine ⟨hear_of_closed live closed signal, fun haddressee => ?_⟩
    simp only [MemoryStep.addressee?, Option.map_eq_some_iff] at haddressee
    obtain ⟨latest, hlatest, rfl⟩ := haddressee
    simp only [MemoryStep.perform, hlatest]
    exact hear_of_closed live closed signal

/-- Two clients on one page: the first one has opened its stream and heard its end, the second one is connecting. -/
def overheard : World MemoryPage :=
  ((MemorySession.begin "<p></p>" { streamUrl := some "/stream" } []).after
    [.withClient 0 .connect, .stream .opening, .stream (.message "end"), .stream .opening,
      .addClient (some "\x7b\"streamUrl\":\"/other\"\x7d") [], .withClient 1 .start]).world

theorem channels_in_order_overheard :
    (∃ client, overheard.client? 0 = some client ∧ client.channel.state = .closed ∧
      ∀ signal, overheard.hear 0 signal = overheard) ∧
    overheard.page.closed = [0] ∧ overheard.page.streams.length = 2 ∧ ChannelLaw overheard := by
  have hfacts : overheard.page.closed = [0] ∧ overheard.page.streams.length = 2 ∧
      (overheard.client? 0).map (·.channel.state) = some .closed := by decide +kernel
  obtain ⟨hclosed, hstreams, hchannel⟩ := hfacts
  obtain ⟨client, hlive, hchannel⟩ := Option.map_eq_some_iff.1 hchannel
  have hreachable : Reachable overheard := MemorySession.reachable _ _ _ _
  have hlaw := channels_in_order hreachable
  exact ⟨⟨client, hlive, hchannel, fun signal => (hlaw.deaf hlive hchannel signal).1⟩, hclosed, hstreams, hlaw⟩

end PageBindings.Script
