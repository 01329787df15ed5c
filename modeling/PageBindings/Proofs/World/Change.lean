import PageBindings.World
import PageBindings.Proofs.Client.Change

/-!
# What happens in a world

What happens in a world is a sequence of changes (`World.Change`): a client that is there does something to the page,
the page itself edits its document, a request gets its response, clients come and go and move their push channels.
Everything that can be asked of a world comes down to such a sequence as long as its clients are numbered
(`World.Numbered`), which they stay.
-/

namespace PageBindings.World

open Relation (ReflTransGen)

/-- Each client is found under its own number. -/
def Numbered (world : World MemoryPage) : Prop :=
  ∀ ref client, world.client? ref = some client → client.ref = ref

/-- One thing happens in a world. -/
inductive Change (world : World MemoryPage) : World MemoryPage → Prop
  | act {client : Client MemoryPage} (live : world.client? client.ref = some client) {page : MemoryPage}
      (change : client.Change world.page page) : Change world { world with page }
  | edit {document : Document} (keeps : world.page.document.Keeps document) (handedOut : List NodeId) :
      Change world { world with page := { world.page with document, handedOut } }
  | settle (index : Nat) :
      Change world { world with page := { world.page with exchanges := Exchange.settle world.page.exchanges index } }
  | refuse (capability : MemoryPage.Capability) (off : Bool) :
      Change world { world with page := world.page.setRefused capability off }
  | note (notices : List Notice) : Change world { world with notices }
  | join (settings : Settings) (resolvers : Resolvers MemoryPage) :
      Change world (world.addClient settings resolvers).1
  | leave (ref : ClientRef) : Change world (world.drop ref)
  | subscribe {client : Client MemoryPage} (live : world.client? client.ref = some client) {url : String}
      {stream : StreamRef} {page : MemoryPage}
      (opened : Page.subscribe world.page url client.ref = .ok (stream, page)) : Change world { world with page }
  | unsubscribe (stream : StreamRef) : Change world { world with page := Page.unsubscribe world.page stream }
  | move {client : Client MemoryPage} (live : world.client? client.ref = some client) (channel : PushChannel) :
      Change world (world.setChannel client channel)

/-! ### Clients -/

section Clients

variable {π : Type} {world world' : World π} {client : Client π} {ref : ClientRef}

theorem lt_length_of_client? (h : world.client? ref = some client) : ref < world.clients.length := by
  by_contra hle
  simp [client?, List.getElem?_eq_none (Nat.le_of_not_lt hle)] at h

theorem client?_of_set (world : World π) {entry : Option (Client π)}
    (h : world'.clients = world.clients.set ref entry) (other : ClientRef) : world'.client? other =
      if ref = other then if ref < world.clients.length then entry else none else world.client? other := by
  unfold client?
  rw [h, List.getElem?_set]
  split
  · split <;> rfl
  · rfl

theorem client?_drop (world : World π) (ref other : ClientRef) :
    (world.drop ref).client? other = if ref = other then none else world.client? other := by
  rw [client?_of_set world rfl, ite_self]

theorem client?_setChannel (live : world.client? client.ref = some client) (channel : PushChannel)
    (other : ClientRef) : (world.setChannel client channel).client? other =
      if client.ref = other then some { client with channel } else world.client? other := by
  rw [client?_of_set world rfl, if_pos (lt_length_of_client? live)]

theorem client?_of_concat (h : world'.clients = world.clients ++ [some client]) (other : ClientRef) :
    world'.client? other = if other = world.clients.length then some client else world.client? other := by
  unfold client?
  rw [h]
  rcases Nat.lt_trichotomy other world.clients.length with hlt | he | hgt
  · rw [List.getElem?_append_left hlt, if_neg (Nat.ne_of_lt hlt)]
  · subst he
    simp
  · rw [if_neg (Nat.ne_of_gt hgt), List.getElem?_eq_none (Nat.le_of_lt hgt), List.getElem?_eq_none]
    rw [List.length_append]
    exact hgt

theorem client?_addClient [Page π] (world : World π) (settings : Settings) (resolvers : Resolvers π)
    (other : ClientRef) : (world.addClient settings resolvers).1.client? other =
      if other = world.clients.length then some (world.addClient settings resolvers).2 else world.client? other :=
  client?_of_concat rfl other

end Clients

variable {world world' : World MemoryPage} {client : Client MemoryPage} {ref : ClientRef}

theorem Change.numbered (h : world.Change world') (hn : world.Numbered) : world'.Numbered := by
  cases h with
  | act => exact hn
  | edit => exact hn
  | settle => exact hn
  | refuse => exact hn
  | note => exact hn
  | join settings resolvers =>
    intro ref client hc
    rw [client?_addClient] at hc
    split at hc
    · rename_i he
      obtain rfl := Option.some.inj hc
      exact he.symm
    · exact hn ref client hc
  | leave gone =>
    intro ref client hc
    rw [client?_drop] at hc
    split at hc
    · simp at hc
    · exact hn ref client hc
  | subscribe => exact hn
  | unsubscribe => exact hn
  | move live channel =>
    intro ref client hc
    rw [client?_setChannel live] at hc
    split at hc
    · rename_i he
      obtain rfl := Option.some.inj hc
      exact he
    · exact hn ref client hc

theorem numbered_of_changes (h : ReflTransGen Change world world') (hn : world.Numbered) : world'.Numbered := by
  induction h with
  | refl => exact hn
  | tail _ hlast ih => exact hlast.numbered ih

/-! ### Clients at work -/

theorem changes_page (live : world.client? client.ref = some client) {page : MemoryPage}
    (h : ReflTransGen client.Change world.page page) : ReflTransGen Change world { world with page } := by
  induction h with
  | refl => exact .refl
  | @tail page page' _ hlast ih =>
    have hact : Change { world with page } { world with page := page' } := .act (by exact live) hlast
    exact ih.tail hact

theorem changes_withScene (live : world.client? client.ref = some client) {scene : Scene MemoryPage}
    (h : ReflTransGen client.Change world.page scene.page) : ReflTransGen Change world (world.withScene scene) :=
  (changes_page live h).tail (.note scene.notices)

theorem changes_note (world : World MemoryPage) (notice : Notice) :
    ReflTransGen Change world (world.withScene (world.note notice)) :=
  .single (.note _)

theorem changes_notify (hn : world.Numbered) (listener : Listener) :
    ReflTransGen Change world (world.notify listener).1 := by
  unfold notify
  split
  · exact changes_note world _
  · rename_i client hc
    have live : world.client? client.ref = some client := by rwa [hn _ client hc]
    exact changes_withScene live (client.changes_run _ _ _ _ _)

/-- What each listener keeps is kept by an event. -/
theorem dispatch_of {P : World MemoryPage → Prop} (hnotify : ∀ world listener, P world → P (world.notify listener).1)
    (h : P world) (node : NodeId) (eventType : String) : P (world.dispatch node eventType).1 := by
  unfold dispatch
  suffices ∀ (listeners : List Listener) (prevented : Bool) (world : World MemoryPage), P world →
      P (listeners.foldl (fun (world, prevented) listener =>
        let (world, prevents) := world.notify listener
        (world, prevented || prevents)) (world, prevented)).1 from this _ false world h
  intro listeners
  induction listeners with
  | nil => exact fun _ _ h => h
  | cons listener rest ih => exact fun prevented world h => ih _ _ (hnotify world listener h)

theorem changes_dispatch (hn : world.Numbered) (node : NodeId) (eventType : String) :
    ReflTransGen Change world (world.dispatch node eventType).1 := by
  refine dispatch_of (P := ReflTransGen Change world) (fun later listener h => ?_) .refl node eventType
  exact h.trans (changes_notify (numbered_of_changes h hn) listener)

theorem changes_complete (hn : world.Numbered) (errand : Errand) (outcome : Outcome) :
    ReflTransGen Change world (world.complete errand outcome) := by
  unfold complete
  split
  · exact .refl
  · rename_i client hc
    have live : world.client? client.ref = some client := by rwa [hn _ client hc]
    exact changes_withScene live (client.changes_complete _ errand outcome)

/-! ### Push channels -/

theorem changes_connect (live : world.client? client.ref = some client) :
    ReflTransGen Change world (world.connect client).1 := by
  unfold connect
  split
  · exact .refl
  · split
    · split
      · rename_i opened
        exact .tail (.single (.subscribe live opened)) (.move (by exact live) _)
      · exact .single (.move live _)
    · exact changes_note world _

theorem changes_close (live : world.client? client.ref = some client) :
    ReflTransGen Change world (world.close client) := by
  unfold close
  split
  · rename_i stream _
    exact .tail (.single (.unsubscribe stream)) (.move (by exact live) _)
  · exact .single (.move live _)

theorem changes_receive (live : world.client? client.ref = some client) (data : String) :
    ReflTransGen Change world (world.receive client data) := by
  unfold receive
  split
  · exact .refl
  · exact changes_close live
  · rename_i html _
    have hpage := client.changes_swapPushed world.toScene html
    split
    · rename_i scene _ heq
      rw [heq] at hpage
      exact changes_withScene live hpage
    · rename_i scene cause heq
      rw [heq] at hpage
      have hnoted : ReflTransGen client.Change world.page (scene.note (.droppedFragment cause)).page := hpage
      exact changes_withScene live hnoted

theorem changes_hear (hn : world.Numbered) (owner : ClientRef) (signal : StreamSignal) :
    ReflTransGen Change world (world.hear owner signal) := by
  unfold hear
  split
  · exact .refl
  · rename_i client hc
    have live : world.client? client.ref = some client := by rwa [hn _ client hc]
    split
    · exact .refl
    · split
      · exact .single (.move live _)
      · exact (changes_note world _).trans (changes_close (by exact live))
      · exact changes_receive live _

theorem changes_start (live : world.client? client.ref = some client) :
    ReflTransGen Change world (world.start client).1 := by
  unfold start
  split
  · exact .refl
  · rename_i roots _
    dsimp only
    have hscan := Client.changes_of_binds (client.binds_scan world.toScene roots)
    have hbound := changes_withScene live hscan
    split
    · have hlive : (world.withScene (client.scan world.toScene roots).1).client? client.ref = some client := live
      have hconnect := changes_connect hlive
      split
      · rename_i heq
        rw [heq] at hconnect
        exact hbound.trans hconnect
      · rename_i heq
        rw [heq] at hconnect
        exact (hbound.trans hconnect).trans (changes_note _ _)
    · exact hbound

end PageBindings.World
