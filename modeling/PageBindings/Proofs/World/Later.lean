import PageBindings.Proofs.World.Change

/-!
# What lasts in a world

Whatever happens in a world, its nodes keep what is written in them, a client keeps its number and all but its push
channel as long as it is there, and a request that was sent stays the same and has its errand until it gets its
response (`World.Later`).
-/

namespace PageBindings.World

open Relation (ReflTransGen)

variable {world world' world'' : World MemoryPage} {client client' : Client MemoryPage} {ref : ClientRef}

/-- What of a world is still there later. -/
structure Later (world world' : World MemoryPage) : Prop where
  keeps : world.page.document.Keeps world'.page.document
  length_le : world.clients.length ≤ world'.clients.length
  client? {ref : ClientRef} {client' : Client MemoryPage} (known : ref < world.clients.length)
    (live : world'.client? ref = some client') :
    ∃ client, world.client? ref = some client ∧ client' = { client with channel := client'.channel }
  exchange? {index : Nat} {exchange : Exchange} (sent : world.page.exchanges[index]? = some exchange) :
    world'.page.exchanges[index]? = some exchange ∨
      world'.page.exchanges[index]? = some { exchange with errand := none }

theorem Later.refl (world : World MemoryPage) : world.Later world :=
  ⟨Document.Keeps.refl _, Nat.le_refl _, fun _ live => ⟨_, live, rfl⟩, .inl⟩

theorem Later.trans (h : world.Later world') (h' : world'.Later world'') : world.Later world'' where
  keeps := h.keeps.trans h'.keeps
  length_le := Nat.le_trans h.length_le h'.length_le
  client? known live := by
    obtain ⟨middle, hmiddle, hlast⟩ := h'.client? (Nat.lt_of_lt_of_le known h.length_le) live
    obtain ⟨first, hfirst, hmid⟩ := h.client? known hmiddle
    refine ⟨first, hfirst, ?_⟩
    rw [hlast, hmid]
  exchange? sent := by
    rcases h.exchange? sent with hsame | hdone
    · exact h'.exchange? hsame
    · rcases h'.exchange? hdone with hlast | hlast
      · exact .inr hlast
      · exact .inr hlast

/-- A client does not touch other clients, nor what has been sent. -/
private theorem later_act {page : MemoryPage} (h : client.Change world.page page) :
    world.Later { world with page } := by
  refine ⟨?_, Nat.le_refl _, fun _ live => ⟨_, live, rfl⟩, ?_⟩
  · cases h with
    | edit grows => exact grows.toKeeps
    | bind binds =>
      rw [Client.document_of_binds (.single binds)]
      exact Document.Keeps.refl _
    | send => exact Document.Keeps.refl _
  · intro index exchange sent
    cases h with
    | edit => exact .inl sent
    | bind binds =>
      cases binds
      exact .inl sent
    | send =>
      left
      rw [List.getElem?_append_left (List.getElem?_eq_some_iff.1 sent).1]
      exact sent

theorem Change.later (h : world.Change world') : world.Later world' := by
  cases h with
  | act live change => exact later_act change
  | edit keeps => exact ⟨keeps, Nat.le_refl _, fun _ live => ⟨_, live, rfl⟩, .inl⟩
  | settle settled =>
    refine ⟨Document.Keeps.refl _, Nat.le_refl _, fun _ live => ⟨_, live, rfl⟩, ?_⟩
    intro index exchange sent
    -- a response takes the errand away, and nothing else
    by_cases he : settled = index
    · right
      simp [Exchange.settle, he, sent]
    · left
      simp [Exchange.settle, he, sent]
  | refuse => exact ⟨Document.Keeps.refl _, Nat.le_refl _, fun _ live => ⟨_, live, rfl⟩, .inl⟩
  | note => exact ⟨Document.Keeps.refl _, Nat.le_refl _, fun _ live => ⟨_, live, rfl⟩, .inl⟩
  | join settings resolvers =>
    refine ⟨Document.Keeps.refl _, ?_, ?_, .inl⟩
    · exact List.length_append ▸ Nat.le_add_right _ _
    · intro ref client' known live
      rw [client?_addClient, if_neg (Nat.ne_of_lt known)] at live
      exact ⟨_, live, rfl⟩
  | leave gone =>
    refine ⟨Document.Keeps.refl _, Nat.le_of_eq List.length_set.symm, ?_, .inl⟩
    intro ref client' _ live
    rw [client?_drop] at live
    split at live
    · simp at live
    · exact ⟨_, live, rfl⟩
  | subscribe _ opened =>
    obtain ⟨-, rfl⟩ := MemoryPage.subscribe_eq_ok opened
    exact ⟨Document.Keeps.refl _, Nat.le_refl _, fun _ live => ⟨_, live, rfl⟩, .inl⟩
  | unsubscribe => exact ⟨Document.Keeps.refl _, Nat.le_refl _, fun _ live => ⟨_, live, rfl⟩, .inl⟩
  | @move client live channel =>
    refine ⟨Document.Keeps.refl _, Nat.le_of_eq List.length_set.symm, ?_, .inl⟩
    intro ref client' _ live'
    rw [client?_setChannel live] at live'
    split at live'
    · rename_i he
      obtain rfl := Option.some.inj live'
      exact ⟨client, he ▸ live, rfl⟩
    · exact ⟨_, live', rfl⟩

theorem later_of_changes (h : ReflTransGen Change world world') : world.Later world' := by
  induction h with
  | refl => exact Later.refl _
  | tail _ hlast ih => exact ih.trans hlast.later

/-! ### Requests -/

/-- A pending request is for what it was sent for. -/
theorem Later.pending? (h : world.Later world') {index : Nat} {exchange : Exchange} {errand : Errand}
    (sent : world.page.exchanges[index]? = some exchange)
    (pending : Exchange.pending? world'.page.exchanges index = some errand) : exchange.errand = some errand := by
  unfold Exchange.pending? at pending
  rcases h.exchange? sent with hsame | hdone
  · simpa [hsame] using pending
  · simp [hdone] at pending

theorem lt_length_of_pending? {exchanges : List Exchange} {index : Nat} {errand : Errand}
    (h : Exchange.pending? exchanges index = some errand) : index < exchanges.length := by
  obtain ⟨exchange, hget, -⟩ := Option.bind_eq_some_iff.1 h
  exact (List.getElem?_eq_some_iff.1 hget).1

/-- A request that has its response is not pending again. -/
theorem Later.not_pending (h : world.Later world') {index : Nat} (sent : index < world.page.exchanges.length)
    (done : Exchange.pending? world.page.exchanges index = none) :
    Exchange.pending? world'.page.exchanges index = none := by
  have hsent := List.getElem?_eq_getElem sent
  cases hp : Exchange.pending? world'.page.exchanges index with
  | none => rfl
  | some errand =>
    have he := h.pending? hsent hp
    simp [Exchange.pending?, hsent, he] at done

end PageBindings.World
