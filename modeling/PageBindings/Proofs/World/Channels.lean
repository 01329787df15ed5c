import PageBindings.Proofs.World.Change

/-!
# Push channels in a world

A step of a world either leaves all push channels and streams alone (`World.Quiet`), or lets a client come or go, or
moves the channel of one client, which may open a stream or close the one it held (`World.Turn`).  Whatever happens, a
channel holds a stream exactly while it is connecting or open, a stream belongs to the one client that opened it, no
client opens a second one, and a stream is closed exactly if its client has closed its channel (`World.InOrder`).

The state of a channel and its stream are written separately.  An opening writes the state alone, and that it finds a
stream there is due to the order: a signal comes from a stream, and a client that is idle has opened none
(`World.InOrder.idle`, `World.turn_hear`).
-/

namespace PageBindings

open Relation (ReflTransGen)

namespace PushChannel

/-- The channel whose stream is open. -/
def opened (stream : StreamRef) : PushChannel :=
  ⟨.opened, some stream⟩

@[simp] theorem state_opened (stream : StreamRef) : (opened stream).state = .opened := rfl

@[simp] theorem stream?_opened (stream : StreamRef) : (opened stream).stream? = some stream := rfl

/-- The channel goes on to another state. -/
inductive Advances : PushChannel → PushChannel → Prop
  | connect (stream : StreamRef) : Advances idle (connecting stream)
  | giveUp : Advances idle closed
  | accept (stream : StreamRef) : Advances (connecting stream) (opened stream)
  | fail (stream : StreamRef) : Advances (connecting stream) closed
  | finish (stream : StreamRef) : Advances (opened stream) closed

theorem Advances.state_ne_closed {channel channel' : PushChannel} (h : channel.Advances channel') :
    channel.state ≠ .closed := by
  cases h <;> simp

/-- The channel holds a stream exactly while it is connecting or open. -/
def IsSound (channel : PushChannel) : Prop :=
  (∃ stream, channel.stream? = some stream) ↔ channel.state = .connecting ∨ channel.state = .opened

theorem isSound_iff {channel : PushChannel} : channel.IsSound ↔
    channel = idle ∨ channel = closed ∨ ∃ stream, channel = connecting stream ∨ channel = opened stream := by
  obtain ⟨state, stream?⟩ := channel
  cases state <;> cases stream? <;> simp [IsSound, idle, closed, connecting, opened]

/-- A channel that holds a stream can only be closed by giving the stream up. -/
theorem Advances.of_stream? {channel : PushChannel} {stream : StreamRef} (sound : channel.IsSound)
    (h : channel.stream? = some stream) : channel.Advances closed := by
  obtain rfl | rfl | ⟨held, rfl | rfl⟩ := isSound_iff.1 sound
  · simp at h
  · simp at h
  · exact .fail held
  · exact .finish held

theorem IsSound.eq_idle {channel : PushChannel} (sound : channel.IsSound) (h : channel.state = .idle) :
    channel = idle := by
  obtain rfl | rfl | ⟨held, rfl | rfl⟩ := isSound_iff.1 sound
  · rfl
  all_goals simp at h

end PushChannel

namespace World

variable {world world' world'' : World MemoryPage} {client client' : Client MemoryPage} {ref : ClientRef}
  {addressee : Option ClientRef}

/-! ### Turns -/

/-- Clients, with their channels, and streams are as they were. -/
structure Quiet (world world' : World MemoryPage) : Prop where
  clients : world'.clients = world.clients
  streams : world'.page.streams = world.page.streams
  closed : world'.page.closed = world.page.closed

/-- How the channel of a client moves, with the streams that this opens and closes. -/
inductive Moves (world : World MemoryPage) (owner : ClientRef) :
    PushChannel → PushChannel → List MemoryPage.Stream → List StreamRef → Prop
  | connect (url : String) : Moves world owner .idle (.connecting world.page.streams.length) [{ url, owner }] []
  | giveUp : Moves world owner .idle .closed [] []
  | accept (stream : StreamRef) : Moves world owner (.connecting stream) (.opened stream) [] []
  | hangUp {channel : PushChannel} {stream : StreamRef} (sound : channel.IsSound)
      (holds : channel.stream? = some stream) : Moves world owner channel .closed [] [stream]

/-- What a step does to clients, channels and streams, by the client that the step is addressed to. -/
inductive Turn (world world' : World MemoryPage) : Option ClientRef → Prop
  | quiet (addressee : Option ClientRef) (h : world.Quiet world') : Turn world world' addressee
  | join {client : Client MemoryPage} (fresh : client.channel = .idle)
      (clients : world'.clients = world.clients ++ [some client])
      (streams : world'.page.streams = world.page.streams) (closed : world'.page.closed = world.page.closed) :
      Turn world world' none
  | leave (ref : ClientRef) (clients : world'.clients = (world.drop ref).clients)
      (streams : world'.page.streams = world.page.streams) (closed : world'.page.closed = world.page.closed) :
      Turn world world' (some ref)
  | move {client : Client MemoryPage} (live : world.client? client.ref = some client) {channel : PushChannel}
      {opened : List MemoryPage.Stream} {gone : List StreamRef}
      (moves : world.Moves client.ref client.channel channel opened gone)
      (clients : world'.clients = (world.setChannel client channel).clients)
      (streams : world'.page.streams = world.page.streams ++ opened)
      (closed : world'.page.closed = world.page.closed ++ gone) : Turn world world' (some client.ref)

theorem Quiet.refl (world : World MemoryPage) : world.Quiet world :=
  ⟨rfl, rfl, rfl⟩

theorem Quiet.trans (h : world.Quiet world') (h' : world'.Quiet world'') : world.Quiet world'' :=
  ⟨h'.clients.trans h.clients, h'.streams.trans h.streams, h'.closed.trans h.closed⟩

theorem client?_congr (h : world'.clients = world.clients) (ref : ClientRef) :
    world'.client? ref = world.client? ref := by
  unfold client?
  rw [h]

theorem Moves.of_streams {owner : ClientRef} {channel channel' : PushChannel} {opened : List MemoryPage.Stream}
    {gone : List StreamRef} (h : world'.Moves owner channel channel' opened gone)
    (streams : world'.page.streams = world.page.streams) : world.Moves owner channel channel' opened gone := by
  cases h with
  | connect url => exact streams ▸ .connect url
  | giveUp => exact .giveUp
  | accept stream => exact .accept stream
  | hangUp sound holds => exact .hangUp sound holds

/-- What is quiet before and after a turn makes no difference to it. -/
theorem Turn.between (before : world.Quiet world') {last : World MemoryPage} (h : world'.Turn world'' addressee)
    (after : world''.Quiet last) : world.Turn last addressee := by
  cases h with
  | quiet _ h => exact .quiet _ ((before.trans h).trans after)
  | join fresh clients streams closed =>
    refine .join fresh ?_ ?_ ?_
    · rw [after.clients, clients, before.clients]
    · rw [after.streams, streams, before.streams]
    · rw [after.closed, closed, before.closed]
  | leave ref clients streams closed =>
    refine .leave ref ?_ ?_ ?_
    · rw [after.clients, clients, drop, drop, before.clients]
    · rw [after.streams, streams, before.streams]
    · rw [after.closed, closed, before.closed]
  | @move client live channel opened gone moves clients streams closed =>
    refine .move ((client?_congr before.clients _).symm.trans live) (moves.of_streams before.streams) ?_ ?_ ?_
    · rw [after.clients, clients, setChannel, setChannel, before.clients]
    · rw [after.streams, streams, before.streams]
    · rw [after.closed, closed, before.closed]

/-! ### Quiet steps -/

/-- A client that works on the page leaves its streams alone. -/
private theorem streams_of_changes {page page' : MemoryPage} (h : ReflTransGen client.Change page page') :
    page'.streams = page.streams ∧ page'.closed = page.closed := by
  induction h with
  | refl => exact ⟨rfl, rfl⟩
  | tail _ hlast ih =>
    cases hlast with
    | edit => exact ih
    | bind binds =>
      cases binds
      exact ih
    | send => exact ih

theorem quiet_withScene {scene : Scene MemoryPage} (h : ReflTransGen client.Change world.page scene.page) :
    world.Quiet (world.withScene scene) := by
  obtain ⟨hstreams, hclosed⟩ := streams_of_changes h
  exact ⟨rfl, hstreams, hclosed⟩

theorem quiet_note (world : World MemoryPage) (notice : Notice) : world.Quiet (world.withScene (world.note notice)) :=
  ⟨rfl, rfl, rfl⟩

theorem quiet_notify (world : World MemoryPage) (listener : Listener) : world.Quiet (world.notify listener).1 := by
  unfold notify
  split
  · exact quiet_note world _
  · rename_i client _
    exact quiet_withScene (client.changes_run _ _ _ _ _)

theorem quiet_dispatch (world : World MemoryPage) (node : NodeId) (eventType : String) :
    world.Quiet (world.dispatch node eventType).1 :=
  dispatch_of (P := world.Quiet) (fun later listener h => h.trans (quiet_notify later listener)) (.refl world) node
    eventType

theorem quiet_complete (world : World MemoryPage) (errand : Errand) (outcome : Outcome) :
    world.Quiet (world.complete errand outcome) := by
  unfold complete
  split
  · exact .refl world
  · rename_i client _
    exact quiet_withScene (client.changes_complete _ errand outcome)

/-! ### Moves -/

/-- Setting a channel to what it is changes nothing. -/
private theorem setChannel_self (live : world.client? client.ref = some client) :
    world.setChannel client client.channel = world := by
  have hget := Option.join_eq_some_iff.1 live
  obtain ⟨hlt, hget⟩ := List.getElem?_eq_some_iff.1 hget
  have hset : world.clients.set client.ref (some client) = world.clients := by
    rw [← hget, List.set_getElem_self]
  unfold setChannel
  rw [hset]

theorem turn_connect (live : world.client? client.ref = some client) (sound : client.channel.IsSound) :
    world.Turn (world.connect client).1 (some client.ref) := by
  unfold connect
  split
  · exact .quiet _ (.refl world)
  · rename_i url _
    split
    · rename_i state
      have idle := sound.eq_idle state
      split
      · rename_i stream page opened
        obtain ⟨rfl, rfl⟩ := MemoryPage.subscribe_eq_ok opened
        exact .move live (idle ▸ .connect url) rfl rfl (List.append_nil _).symm
      · have failed : client.channel.afterFailure = .closed := by rw [idle]; rfl
        rw [failed]
        exact .move live (idle ▸ .giveUp) rfl (List.append_nil _).symm (List.append_nil _).symm
    · exact .quiet _ (quiet_note world _)

theorem turn_close (live : world.client? client.ref = some client) (sound : client.channel.IsSound) :
    world.Turn (world.close client) (some client.ref) := by
  unfold close
  split
  · rename_i stream holds
    exact .move live (.hangUp sound holds) rfl (List.append_nil _).symm rfl
  · rename_i holds
    obtain idle | closed | ⟨stream, connecting | opened⟩ := PushChannel.isSound_iff.1 sound
    · exact .move live (idle ▸ .giveUp) rfl (List.append_nil _).symm (List.append_nil _).symm
    · have hsame := setChannel_self live
      rw [closed] at hsame
      dsimp only
      rw [hsame]
      exact .quiet _ (.refl world)
    · simp [connecting] at holds
    · simp [opened] at holds

/-- An opening only makes sense for a channel that holds a stream. -/
theorem turn_opening (live : world.client? client.ref = some client) (sound : client.channel.IsSound)
    (begun : client.channel.state ≠ .idle) (going : client.channel.state ≠ .closed) :
    world.Turn (world.setChannel client client.channel.afterOpening) (some client.ref) := by
  obtain idle | closed | ⟨stream, connecting | opened⟩ := PushChannel.isSound_iff.1 sound
  · exact absurd (congrArg PushChannel.state idle) begun
  · exact absurd (congrArg PushChannel.state closed) going
  · have opens : client.channel.afterOpening = .opened stream := by rw [connecting]; rfl
    rw [opens]
    exact .move live (connecting ▸ .accept stream) rfl (List.append_nil _).symm (List.append_nil _).symm
  · have hsame := setChannel_self live
    have stays : client.channel.afterOpening = client.channel := by rw [opened]; rfl
    rw [stays, hsame]
    exact .quiet _ (.refl world)

theorem turn_receive (live : world.client? client.ref = some client) (sound : client.channel.IsSound)
    (data : String) :
    world.Turn (world.receive client data) (some client.ref) := by
  unfold receive
  split
  · exact .quiet _ (.refl world)
  · exact turn_close live sound
  · rename_i html _
    have hswap := client.changes_swapPushed world.toScene html
    split
    · rename_i scene _ heq
      rw [heq] at hswap
      exact .quiet _ (quiet_withScene hswap)
    · rename_i scene cause heq
      rw [heq] at hswap
      exact .quiet _ ((quiet_withScene hswap).trans (quiet_note _ (.droppedFragment cause)))

theorem turn_start (live : world.client? client.ref = some client) (sound : client.channel.IsSound) :
    world.Turn (world.start client).1 (some client.ref) := by
  unfold start
  split
  · exact .quiet _ (.refl world)
  · rename_i roots _
    dsimp only
    have hscan : world.Quiet (world.withScene (client.scan world.toScene roots).1) :=
      quiet_withScene (Client.changes_of_binds (client.binds_scan world.toScene roots))
    split
    · have hlive : (world.withScene (client.scan world.toScene roots).1).client? client.ref = some client := live
      have hconnect := turn_connect hlive sound
      split
      · rename_i heq
        rw [heq] at hconnect
        exact .between hscan hconnect (.refl _)
      · rename_i heq
        rw [heq] at hconnect
        exact .between hscan hconnect (quiet_note _ _)
    · exact .quiet _ hscan

/-! ### What a turn does -/

/-- A client that held a stream has closed its channel. -/
def GivesUp (world world' : World MemoryPage) (stream : StreamRef) : Prop :=
  ∃ ref client client', world.client? ref = some client ∧ world'.client? ref = some client' ∧
    client.channel.stream? = some stream ∧ client'.channel = .closed

/-- One step of the push channels of a world, by the client that it is addressed to. -/
structure Steps (world world' : World MemoryPage) (addressee : Option ClientRef) : Prop where
  /-- A channel stays as it is or goes on to another state. -/
  advances {ref : ClientRef} {client client' : Client MemoryPage} (before : world.client? ref = some client)
    (after : world'.client? ref = some client') :
    client'.channel = client.channel ∨ client.channel.Advances client'.channel
  /-- Only the client that the step is addressed to moves its channel. -/
  others {ref : ClientRef} (known : ref < world.clients.length) (other : addressee ≠ some ref) :
    world'.client? ref = world.client? ref
  /-- A stream is opened for an idle client, which holds it then. -/
  opens : world'.page.streams = world.page.streams ∨ ∃ ref client client' url,
    world.client? ref = some client ∧ client.channel = .idle ∧ world'.client? ref = some client' ∧
      client'.channel = .connecting world.page.streams.length ∧
      world'.page.streams = world.page.streams ++ [{ url, owner := ref }]
  /-- A stream is closed once more if its client gives it up, and for no other reason. -/
  closes (stream : StreamRef) :
    (world.GivesUp world' stream → world'.page.closed.count stream = world.page.closed.count stream + 1) ∧
      (¬ world.GivesUp world' stream → world'.page.closed.count stream = world.page.closed.count stream)

/-- A client that is there before and after a turn is the same, or the one whose channel has moved. -/
theorem Turn.client_cases (h : world.Turn world' addressee) (before : world.client? ref = some client)
    (after : world'.client? ref = some client') :
    client' = client ∨ ∃ channel opened gone, world.Moves ref client.channel channel opened gone ∧
      client' = { client with channel } ∧ world'.page.closed = world.page.closed ++ gone := by
  cases h with
  | quiet _ quiet =>
    rw [client?_congr quiet.clients, before] at after
    exact .inl (Option.some.inj after).symm
  | join fresh clients =>
    rw [client?_of_concat clients, if_neg (Nat.ne_of_lt (lt_length_of_client? before)), before] at after
    exact .inl (Option.some.inj after).symm
  | leave gone clients =>
    rw [client?_congr clients, client?_drop] at after
    split at after
    · simp at after
    · rw [before] at after
      exact .inl (Option.some.inj after).symm
  | @move mover live channel opened gone moves clients streams closed =>
    rw [client?_congr clients, client?_setChannel live] at after
    split at after
    · rename_i he
      subst he
      obtain rfl := Option.some.inj (live.symm.trans before)
      exact .inr ⟨channel, opened, gone, moves, (Option.some.inj after).symm, closed⟩
    · rw [before] at after
      exact .inl (Option.some.inj after).symm

/-- A client gives its stream up by the move that closes the stream. -/
theorem Turn.of_givesUp (h : world.Turn world' addressee) {stream : StreamRef} (gives : world.GivesUp world' stream) :
    world'.page.closed = world.page.closed ++ [stream] := by
  obtain ⟨ref, client, client', before, after, holds, closed⟩ := gives
  rcases h.client_cases before after with rfl | ⟨channel, opened, gone, moves, rfl, hclosed⟩
  · rw [closed] at holds
    simp at holds
  · generalize client.channel = start at moves holds
    cases moves with
    | connect url => exact absurd (congrArg PushChannel.state closed) (by simp)
    | giveUp => simp at holds
    | accept s => exact absurd (congrArg PushChannel.state closed) (by simp)
    | hangUp _ held => rw [hclosed, Option.some.inj (held.symm.trans holds)]

theorem Turn.steps (h : world.Turn world' addressee) : world.Steps world' addressee where
  advances before after := by
    rcases h.client_cases before after with rfl | ⟨channel, opened, gone, moves, rfl, -⟩
    · exact .inl rfl
    · right
      generalize Client.channel _ = start at moves
      cases moves with
      | connect url => exact .connect _
      | giveUp => exact .giveUp
      | accept stream => exact .accept stream
      | hangUp sound holds => exact .of_stream? sound holds
  others {ref} known other := by
    cases h with
    | quiet _ quiet => exact client?_congr quiet.clients ref
    | join fresh clients => rw [client?_of_concat clients, if_neg (Nat.ne_of_lt known)]
    | leave gone clients =>
      rw [client?_congr clients, client?_drop, if_neg fun he => other (congrArg some he)]
    | move live moves clients =>
      rw [client?_congr clients, client?_setChannel live, if_neg fun he => other (congrArg some he)]
  opens := by
    cases h with
    | quiet _ quiet => exact .inl quiet.streams
    | join _ _ streams => exact .inl streams
    | leave _ _ streams => exact .inl streams
    | @move client live channel opened gone moves clients streams closed =>
      have after : world'.client? client.ref = some { client with channel } := by
        rw [client?_congr clients, client?_setChannel live, if_pos rfl]
      generalize hstart : client.channel = start at moves
      cases moves with
      | connect url => exact .inr ⟨client.ref, client, _, url, live, hstart, after, rfl, streams⟩
      | giveUp => exact .inl (streams.trans (List.append_nil _))
      | accept stream => exact .inl (streams.trans (List.append_nil _))
      | hangUp _ holds => exact .inl (streams.trans (List.append_nil _))
  closes stream := by
    refine ⟨fun gives => ?_, fun keeps => ?_⟩
    · rw [h.of_givesUp gives, List.count_append, List.count_singleton_self]
    · cases h with
      | quiet _ quiet => rw [quiet.closed]
      | join _ _ _ closed => rw [closed]
      | leave _ _ _ closed => rw [closed]
      | @move client live channel opened gone moves clients streams closed =>
        have after : world'.client? client.ref = some { client with channel } := by
          rw [client?_congr clients, client?_setChannel live, if_pos rfl]
        rw [closed, List.count_append]
        generalize hstart : client.channel = start at moves
        cases moves with
        | connect url => rfl
        | giveUp => rfl
        | accept stream => rfl
        | @hangUp _ held _ holds =>
          have hne : held ≠ stream := by
            rintro rfl
            exact keeps ⟨client.ref, client, _, live, after, hstart ▸ holds, rfl⟩
          simp [hne]

/-! ### Order -/

/-- Streams belong to the clients that opened them, and are closed exactly if these have closed their channels. -/
structure InOrder (world : World MemoryPage) : Prop where
  /-- A client holds a stream exactly while its channel is connecting or open. -/
  sound {ref : ClientRef} {client : Client MemoryPage} (live : world.client? ref = some client) :
    client.channel.IsSound
  /-- No client has opened two streams. -/
  sole : (world.page.streams.map MemoryPage.Stream.owner).Nodup
  known {stream : MemoryPage.Stream} (h : stream ∈ world.page.streams) : stream.owner < world.clients.length
  /-- No stream is closed twice, and only one that was opened is. -/
  once (stream : StreamRef) : world.page.closed.count stream ≤ 1
  opened {stream : StreamRef} (h : stream ∈ world.page.closed) : stream < world.page.streams.length
  /-- A client that is idle has opened no stream yet. -/
  idle {ref : ClientRef} {client : Client MemoryPage} (live : world.client? ref = some client)
    (h : client.channel.state = .idle) : ref ∉ world.page.streams.map MemoryPage.Stream.owner
  /-- The stream that a client holds is its own, and is not closed. -/
  held {ref : ClientRef} {client : Client MemoryPage} {stream : StreamRef} (live : world.client? ref = some client)
    (h : client.channel.stream? = some stream) :
    (world.page.streams[stream]?).map MemoryPage.Stream.owner = some ref ∧ stream ∉ world.page.closed
  /-- If a client has closed its channel, then the stream that it had opened is closed. -/
  ended {ref : ClientRef} {client : Client MemoryPage} {stream : StreamRef} (live : world.client? ref = some client)
    (h : client.channel.state = .closed)
    (own : (world.page.streams[stream]?).map MemoryPage.Stream.owner = some ref) : stream ∈ world.page.closed

/-- The owner of the stream of a number, once a stream was opened behind the others. -/
private theorem owner_concat {streams : List MemoryPage.Stream} {opened : MemoryPage.Stream} {stream : StreamRef}
    {ref : ClientRef} (h : ((streams ++ [opened])[stream]?).map MemoryPage.Stream.owner = some ref) :
    (streams[stream]?).map MemoryPage.Stream.owner = some ref ∨ (stream = streams.length ∧ opened.owner = ref) := by
  rcases Nat.lt_or_ge stream streams.length with hlt | hge
  · rw [List.getElem?_append_left hlt] at h
    exact .inl h
  · rw [List.getElem?_append_right hge] at h
    obtain ⟨last, hlast, howner⟩ := Option.map_eq_some_iff.1 h
    have hzero : stream - streams.length = 0 := by
      simpa using (List.getElem?_eq_some_iff.1 hlast).1
    rw [hzero] at hlast
    obtain rfl := Option.some.inj hlast
    exact .inr ⟨Nat.le_antisymm (Nat.le_of_sub_eq_zero hzero) hge, howner⟩

/-- Streams of one owner are one stream. -/
theorem InOrder.unique (h : world.InOrder) {stream other : StreamRef}
    (hstream : (world.page.streams[stream]?).map MemoryPage.Stream.owner = some ref)
    (hother : (world.page.streams[other]?).map MemoryPage.Stream.owner = some ref) : stream = other := by
  rw [← List.getElem?_map] at hstream hother
  exact (List.getElem?_inj (List.getElem?_eq_some_iff.1 hstream).1 h.sole).1 (hstream.trans hother.symm)

/-- Clients that come are idle, and those that go leave their streams as they are. -/
private theorem InOrder.of_clients (h : world.InOrder) (length : world.clients.length ≤ world'.clients.length)
    (streams : world'.page.streams = world.page.streams) (closed : world'.page.closed = world.page.closed)
    (hc : ∀ ref client, world'.client? ref = some client → world.client? ref = some client ∨
      (client.channel = .idle ∧ world.clients.length ≤ ref)) : world'.InOrder where
  sound {ref client} live := by
    rcases hc ref client live with hold | ⟨hidle, -⟩
    · exact h.sound hold
    · exact PushChannel.isSound_iff.2 (.inl hidle)
  sole := streams ▸ h.sole
  known hmem := Nat.lt_of_lt_of_le (h.known (streams ▸ hmem)) length
  once stream := closed ▸ h.once stream
  opened hmem := streams ▸ h.opened (closed ▸ hmem)
  idle {ref client} live hidle := by
    rw [streams]
    rcases hc ref client live with hold | ⟨-, hnew⟩
    · exact h.idle hold hidle
    · intro hmem
      obtain ⟨stream, hstream, rfl⟩ := List.mem_map.1 hmem
      exact absurd (h.known hstream) (Nat.not_lt.2 hnew)
  held {ref client stream} live holds := by
    rw [streams, closed]
    rcases hc ref client live with hold | ⟨hidle, -⟩
    · exact h.held hold holds
    · simp [hidle] at holds
  ended {ref client stream} live hclosed own := by
    rw [streams] at own
    rw [closed]
    rcases hc ref client live with hold | ⟨hidle, -⟩
    · exact h.ended hold hclosed own
    · simp [hidle] at hclosed

/-- A client that moves its channel, and the others. -/
private theorem client_cases_of_setChannel (live : world.client? client.ref = some client) {channel : PushChannel}
    (clients : world'.clients = (world.setChannel client channel).clients) {other : Client MemoryPage}
    (after : world'.client? ref = some other) :
    (ref = client.ref ∧ other.channel = channel) ∨ (ref ≠ client.ref ∧ world.client? ref = some other) := by
  rw [client?_congr clients, client?_setChannel live] at after
  split at after
  · rename_i he
    exact .inl ⟨he.symm, congrArg Client.channel (Option.some.inj after).symm⟩
  · rename_i hne
    exact .inr ⟨Ne.symm hne, after⟩

/-- The client opens its stream. -/
private theorem InOrder.connect (h : world.InOrder) (live : world.client? client.ref = some client)
    (idle : client.channel.state = .idle) {url : String}
    (clients : world'.clients = (world.setChannel client (.connecting world.page.streams.length)).clients)
    (streams : world'.page.streams = world.page.streams ++ [{ url, owner := client.ref }])
    (closed : world'.page.closed = world.page.closed) : world'.InOrder where
  sound {ref other} after := by
    rcases client_cases_of_setChannel live clients after with ⟨-, hchannel⟩ | ⟨-, before⟩
    · exact PushChannel.isSound_iff.2 (.inr (.inr ⟨_, .inl hchannel⟩))
    · exact h.sound before
  sole := by
    rw [streams, List.map_append]
    refine List.nodup_append.2 ⟨h.sole, List.nodup_singleton _, ?_⟩
    rintro owner howner _ hlast rfl
    have hlast : owner = client.ref := List.mem_singleton.1 hlast
    exact h.idle live idle (hlast ▸ howner)
  known {stream} hmem := by
    rw [clients, setChannel, List.length_set]
    rw [streams] at hmem
    rcases List.mem_append.1 hmem with hold | hnew
    · exact h.known hold
    · rw [List.mem_singleton.1 hnew]
      exact lt_length_of_client? live
  once stream := closed ▸ h.once stream
  opened hmem := by
    rw [streams, List.length_append]
    exact Nat.lt_add_right _ (h.opened (closed ▸ hmem))
  idle {ref other} after hidle := by
    rw [streams, List.map_append, List.mem_append, not_or]
    rcases client_cases_of_setChannel live clients after with ⟨-, hchannel⟩ | ⟨hne, before⟩
    · simp [hchannel] at hidle
    · exact ⟨h.idle before hidle, by simpa using hne⟩
  held {ref other stream} after holds := by
    rw [streams, closed]
    rcases client_cases_of_setChannel live clients after with ⟨rfl, hchannel⟩ | ⟨-, before⟩
    · rw [hchannel] at holds
      obtain rfl := Option.some.inj holds
      refine ⟨by simp, fun hmem => ?_⟩
      exact Nat.lt_irrefl _ (h.opened hmem)
    · obtain ⟨own, hopen⟩ := h.held before holds
      obtain ⟨found, hfound, howner⟩ := Option.map_eq_some_iff.1 own
      refine ⟨?_, hopen⟩
      rw [List.getElem?_append_left (List.getElem?_eq_some_iff.1 hfound).1]
      exact own
  ended {ref other stream} after hclosed own := by
    rw [streams] at own
    rw [closed]
    rcases client_cases_of_setChannel live clients after with ⟨-, hchannel⟩ | ⟨hne, before⟩
    · simp [hchannel] at hclosed
    · rcases owner_concat own with hold | ⟨-, howner⟩
      · exact h.ended before hclosed hold
      · exact absurd howner.symm hne

/-- The client gives up the stream that it holds. -/
private theorem InOrder.hangUp (h : world.InOrder) (live : world.client? client.ref = some client)
    {gone : StreamRef} (holds : client.channel.stream? = some gone)
    (clients : world'.clients = (world.setChannel client .closed).clients)
    (streams : world'.page.streams = world.page.streams) (closed : world'.page.closed = world.page.closed ++ [gone]) :
    world'.InOrder where
  sound {ref other} after := by
    rcases client_cases_of_setChannel live clients after with ⟨-, hchannel⟩ | ⟨-, before⟩
    · exact PushChannel.isSound_iff.2 (.inr (.inl hchannel))
    · exact h.sound before
  sole := streams ▸ h.sole
  known {stream} hmem := by
    rw [clients, setChannel, List.length_set]
    exact h.known (streams ▸ hmem)
  once stream := by
    rw [closed, List.count_append]
    by_cases he : gone = stream
    · subst he
      rw [List.count_eq_zero_of_not_mem (h.held live holds).2, List.count_singleton_self]
    · simpa [he] using h.once stream
  opened {stream} hmem := by
    rw [streams]
    rw [closed] at hmem
    rcases List.mem_append.1 hmem with hold | hnew
    · exact h.opened hold
    · obtain ⟨found, hfound, -⟩ := Option.map_eq_some_iff.1 (h.held live holds).1
      exact List.mem_singleton.1 hnew ▸ (List.getElem?_eq_some_iff.1 hfound).1
  idle {ref other} after hidle := by
    rw [streams]
    rcases client_cases_of_setChannel live clients after with ⟨-, hchannel⟩ | ⟨-, before⟩
    · simp [hchannel] at hidle
    · exact h.idle before hidle
  held {ref other stream} after hheld := by
    rw [streams, closed]
    rcases client_cases_of_setChannel live clients after with ⟨-, hchannel⟩ | ⟨hne, before⟩
    · simp [hchannel] at hheld
    · obtain ⟨own, hopen⟩ := h.held before hheld
      refine ⟨own, fun hmem => ?_⟩
      -- a stream has one owner
      rcases List.mem_append.1 hmem with hold | hnew
      · exact hopen hold
      · obtain rfl := List.mem_singleton.1 hnew
        exact hne (Option.some.inj (own.symm.trans (h.held live holds).1))
  ended {ref other stream} after hclosed own := by
    rw [streams] at own
    rw [closed]
    rcases client_cases_of_setChannel live clients after with ⟨rfl, -⟩ | ⟨-, before⟩
    · rw [h.unique own (h.held live holds).1]
      exact List.mem_append_right _ (List.mem_singleton_self gone)
    · exact List.mem_append_left _ (h.ended before hclosed own)

/-- The client moves its channel and leaves all streams alone. -/
private theorem InOrder.setChannel (h : world.InOrder) (live : world.client? client.ref = some client)
    {channel : PushChannel} (sound : channel.IsSound) (same : channel.stream? = client.channel.stream?)
    (busy : channel.state ≠ .idle) (fresh : channel.state = .closed → client.channel.state = .idle)
    (clients : world'.clients = (world.setChannel client channel).clients)
    (streams : world'.page.streams = world.page.streams) (closed : world'.page.closed = world.page.closed) :
    world'.InOrder where
  sound {ref other} after := by
    rcases client_cases_of_setChannel live clients after with ⟨-, hchannel⟩ | ⟨-, before⟩
    · exact hchannel ▸ sound
    · exact h.sound before
  sole := streams ▸ h.sole
  known {stream} hmem := by
    rw [clients, World.setChannel, List.length_set]
    exact h.known (streams ▸ hmem)
  once stream := closed ▸ h.once stream
  opened hmem := streams ▸ h.opened (closed ▸ hmem)
  idle {ref other} after hidle := by
    rw [streams]
    rcases client_cases_of_setChannel live clients after with ⟨-, hchannel⟩ | ⟨-, before⟩
    · exact absurd (hchannel ▸ hidle) busy
    · exact h.idle before hidle
  held {ref other stream} after hheld := by
    rw [streams, closed]
    rcases client_cases_of_setChannel live clients after with ⟨rfl, hchannel⟩ | ⟨-, before⟩
    · rw [hchannel, same] at hheld
      exact h.held live hheld
    · exact h.held before hheld
  ended {ref other stream} after hclosed own := by
    rw [streams] at own
    rw [closed]
    rcases client_cases_of_setChannel live clients after with ⟨rfl, hchannel⟩ | ⟨-, before⟩
    · have hnone := h.idle live (fresh (hchannel ▸ hclosed))
      obtain ⟨found, hfound, howner⟩ := Option.map_eq_some_iff.1 own
      exact absurd (List.mem_map.2 ⟨found, List.mem_of_getElem? hfound, howner⟩) hnone
    · exact h.ended before hclosed own

theorem Turn.inOrder (h : world.Turn world' addressee) (ho : world.InOrder) : world'.InOrder := by
  cases h with
  | quiet _ quiet =>
    refine ho.of_clients (Nat.le_of_eq (congrArg List.length quiet.clients.symm)) quiet.streams quiet.closed ?_
    exact fun ref client live => .inl (client?_congr quiet.clients ref ▸ live)
  | @join client idle clients streams closed =>
    refine ho.of_clients ?_ streams closed fun ref other live => ?_
    · rw [clients, List.length_append]
      exact Nat.le_add_right _ _
    · rw [client?_of_concat clients] at live
      split at live
      · rename_i he
        exact .inr ⟨Option.some.inj live ▸ idle, Nat.le_of_eq he.symm⟩
      · exact .inl live
  | leave gone clients streams closed =>
    refine ho.of_clients ?_ streams closed fun ref other live => ?_
    · rw [clients, drop, List.length_set]
    · rw [client?_congr clients, client?_drop] at live
      split at live
      · simp at live
      · exact .inl live
  | @move client live channel opened gone moves clients streams closed =>
    generalize hstart : client.channel = start at moves
    cases moves with
    | connect url =>
      rw [List.append_nil] at closed
      exact ho.connect live (by rw [hstart]; rfl) clients streams closed
    | giveUp =>
      rw [List.append_nil] at streams closed
      exact ho.setChannel live (PushChannel.isSound_iff.2 (.inr (.inl rfl))) (by rw [hstart]; rfl) (by simp)
        (fun _ => by rw [hstart]; rfl) clients streams closed
    | accept stream =>
      rw [List.append_nil] at streams closed
      exact ho.setChannel live (PushChannel.isSound_iff.2 (.inr (.inr ⟨stream, .inr rfl⟩))) (by rw [hstart]; rfl)
        (by simp) (by simp) clients streams closed
    | hangUp _ holds =>
      rw [List.append_nil] at streams
      exact ho.hangUp live (hstart ▸ holds) clients streams closed

/-! ### Signals -/

/-- What is heard comes from a stream that its client has opened, so that the channel of this client is not idle. -/
theorem turn_hear (ho : world.InOrder) (hn : world.Numbered) {owner : ClientRef}
    (opener : owner ∈ world.page.streams.map MemoryPage.Stream.owner) (signal : StreamSignal) :
    world.Turn (world.hear owner signal) (some owner) := by
  unfold hear
  split
  · exact .quiet _ (.refl world)
  · rename_i client hc
    obtain rfl := hn owner client hc
    have sound := ho.sound hc
    split
    · exact .quiet _ (.refl world)
    · rename_i going
      split
      · have begun : client.channel.state ≠ .idle := fun idle => ho.idle hc idle opener
        exact turn_opening hc sound begun going
      · rename_i detail
        have hnote := quiet_note world (.failedTransport (.stream detail))
        exact .between hnote (turn_close (by exact hc) sound) (.refl _)
      · exact turn_receive hc sound _

end World

end PageBindings
