import PageBindings.Proofs.World.Later

/-!
# Marks and listeners

The marks of a page are exactly the event types that have a listener, which is the only one (`MemoryPage.Paired`).  A
listener of a client that is still there does what its element declares (`World.Declared`): the listener was made from
the declaration, and neither that nor the settings of the client have changed.  Both hold on, whatever happens in a
world, since only a client that binds adds marks or listeners (`World.Change.binds`).
-/

namespace PageBindings

open Relation (ReflTransGen)

namespace MemoryPage

/-- An element has one listener for an event type that is marked on it, and none for one that is not. -/
def Paired (page : MemoryPage) : Prop :=
  ∀ node eventType, (page.listenersOf node eventType).length = if (node, eventType) ∈ page.marks then 1 else 0

variable {page page' : MemoryPage} {client : Client MemoryPage}

theorem listenersOf_append (page : MemoryPage) (marks : List (NodeId × String)) (listener : Listener) (node : NodeId)
    (eventType : String) :
    { page with marks, listeners := page.listeners ++ [listener] : MemoryPage }.listenersOf node eventType =
      page.listenersOf node eventType ++
        if listener.node = node ∧ listener.eventType = eventType then [listener] else [] := by
  simp [listenersOf, List.filter_append, List.filter_singleton]

/-- An event type gets its listener together with its mark, and only if it has none. -/
theorem Paired.binds (h : page.Paired) (hb : client.Binds page page') : page'.Paired := by
  cases hb with
  | @intro listener _ fresh _ =>
    intro node eventType
    rw [listenersOf_append, List.length_append, h]
    by_cases he : listener.node = node ∧ listener.eventType = eventType
    · obtain ⟨rfl, rfl⟩ := he
      simp [fresh]
    · have hne : (node, eventType) ≠ (listener.node, listener.eventType) := by
        intro h
        exact he ⟨(Prod.mk.inj h).1.symm, (Prod.mk.inj h).2.symm⟩
      simp [he, hne]

end MemoryPage

namespace World

variable {world world' : World MemoryPage}

/-- A change that is no binding of a client leaves marks and listeners alone. -/
theorem Change.binds (h : world.Change world') :
    (world'.page.marks = world.page.marks ∧ world'.page.listeners = world.page.listeners) ∨
      ∃ client, world.client? client.ref = some client ∧ client.Binds world.page world'.page := by
  cases h with
  | @act client live page change =>
    cases change with
    | edit => exact .inl ⟨rfl, rfl⟩
    | bind binds => exact .inr ⟨client, live, binds⟩
    | send => exact .inl ⟨rfl, rfl⟩
  | edit => exact .inl ⟨rfl, rfl⟩
  | settle => exact .inl ⟨rfl, rfl⟩
  | refuse => exact .inl ⟨rfl, rfl⟩
  | note => exact .inl ⟨rfl, rfl⟩
  | join => exact .inl ⟨rfl, rfl⟩
  | leave => exact .inl ⟨rfl, rfl⟩
  | subscribe _ opened =>
    obtain ⟨-, rfl⟩ := MemoryPage.subscribe_eq_ok opened
    exact .inl ⟨rfl, rfl⟩
  | unsubscribe => exact .inl ⟨rfl, rfl⟩
  | move => exact .inl ⟨rfl, rfl⟩

theorem Change.paired (h : world.Change world') (hp : world.page.Paired) : world'.page.Paired := by
  rcases h.binds with ⟨hmarks, hlisteners⟩ | ⟨client, -, hb⟩
  · intro node eventType
    have hp := hp node eventType
    rwa [MemoryPage.listenersOf, ← hlisteners, ← hmarks] at hp
  · exact hp.binds hb

/--
Every listener belongs to a client that is or was there, and does what its element declares if the client still is.
-/
def Declared (world : World MemoryPage) : Prop :=
  ∀ listener ∈ world.page.listeners, listener.client < world.clients.length ∧
    ∀ client, world.client? listener.client = some client → client.Declares world.page listener

theorem Change.declared (h : world.Change world') (hd : world.Declared) : world'.Declared := by
  have hl := h.later
  -- what was declared before still is, for a client that differs in its push channel at most
  have carried : ∀ listener : Listener, listener.client < world.clients.length →
      (∀ client, world.client? listener.client = some client → client.Declares world.page listener) →
      listener.client < world'.clients.length ∧
        ∀ client, world'.client? listener.client = some client → client.Declares world'.page listener := by
    intro listener hlt hdeclares
    refine ⟨Nat.lt_of_lt_of_le hlt hl.length_le, fun client' live => ?_⟩
    obtain ⟨client, hclient, heq⟩ := hl.client? hlt live
    have hkept := (hdeclares client hclient).of_keeps hl.keeps
    rw [heq]
    exact ⟨hkept.owner, hkept.view, hkept.actions⟩
  intro listener hmem
  rcases h.binds with ⟨-, hlisteners⟩ | ⟨client, live, hb⟩
  · rw [hlisteners] at hmem
    exact carried listener (hd listener hmem).1 (hd listener hmem).2
  · rcases hb.mem_listeners hmem with hold | hnew
    · exact carried listener (hd listener hold).1 (hd listener hold).2
    · have howner := hnew.owner
      refine carried listener (howner ▸ lt_length_of_client? live) fun other hother => ?_
      rw [howner, live] at hother
      exact Option.some.inj hother ▸ hnew

/-- What holds of a world from its start on, whatever happens in it. -/
structure Sound (world : World MemoryPage) : Prop where
  numbered : world.Numbered
  paired : world.page.Paired
  declared : world.Declared

theorem Change.sound (h : world.Change world') (hs : world.Sound) : world'.Sound :=
  ⟨h.numbered hs.numbered, h.paired hs.paired, h.declared hs.declared⟩

theorem sound_of_changes (h : ReflTransGen Change world world') (hs : world.Sound) : world'.Sound := by
  induction h with
  | refl => exact hs
  | tail _ hlast ih => exact hlast.sound ih

/-- The only listener of an element for an event type is all that an event sets off. -/
theorem dispatch_of_singleton {node : NodeId} {eventType : String} {listener : Listener}
    (h : world.page.listenersOf node eventType = [listener]) :
    world.dispatch node eventType = world.notify listener := by
  have h : Page.listeners world.page node eventType = [listener] := h
  unfold dispatch
  rw [h]
  rfl

theorem Sound.eq_singleton (h : world.Sound) {node : NodeId} {eventType : String} {listener : Listener}
    (hmem : listener ∈ world.page.listenersOf node eventType) :
    world.page.listenersOf node eventType = [listener] := by
  have hlength := h.paired node eventType
  split at hlength
  · obtain ⟨only, honly⟩ := List.length_eq_one_iff.1 hlength
    rw [honly] at hmem ⊢
    rw [List.mem_singleton.1 hmem]
  · rw [List.length_eq_zero_iff.1 hlength] at hmem
    simp at hmem

end World

end PageBindings
