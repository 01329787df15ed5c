import PageBindings.Proofs.Client.Grafting
import PageBindings.Proofs.Script.Reachable

/-!
# One listener for each mark

In a reachable world an event never runs the actions of an element twice (`sole_listener`): whatever was scanned,
patched or refused before, the marks of an element are the event types that it has a listener for, and it has only
one.  Marks and listeners are on nodes that are in use (`Reachable.seated`), so that new elements have none.
-/

namespace PageBindings.Script

/-- Only a client that binds adds marks or listeners, and nodes stay in use. -/
private theorem seated_of_change {world world' : World MemoryPage} (h : world.Change world')
    (hs : world.page.Seated) : world'.page.Seated := by
  cases h with
  | act live change => exact Client.seated_of_changes (.single change) hs
  | edit keeps =>
    refine ⟨fun mark hmark => ?_, fun listener hmem => ?_⟩
    · exact Nat.lt_of_lt_of_le (hs.marks mark hmark) keeps.size_le
    · exact Nat.lt_of_lt_of_le (hs.listeners listener hmem) keeps.size_le
  | settle => exact ⟨hs.marks, hs.listeners⟩
  | refuse => exact ⟨hs.marks, hs.listeners⟩
  | note => exact hs
  | join => exact ⟨hs.marks, hs.listeners⟩
  | leave => exact hs
  | subscribe _ opened =>
    obtain ⟨-, rfl⟩ := MemoryPage.subscribe_eq_ok opened
    exact ⟨hs.marks, hs.listeners⟩
  | unsubscribe => exact ⟨hs.marks, hs.listeners⟩
  | move => exact hs

theorem Reachable.seated {world : World MemoryPage} (h : Reachable world) : world.page.Seated := by
  obtain ⟨markup, h⟩ := h
  have hchanges := h.changes (sound_withBody markup).numbered
  clear h
  induction hchanges with
  | refl => exact MemoryPage.seated_withBody markup
  | tail _ hlast ih => exact seated_of_change hlast ih

/--
An element has a listener for an event type exactly if the type is marked on it, and never more than one, so that this
one is all that an event sets off.
-/
theorem sole_listener {world : World MemoryPage} (h : Reachable world) (node : NodeId) (eventType : String) :
    (world.page.listenersOf node eventType).length ≤ 1 ∧
      ((world.page.listenersOf node eventType).length = 1 ↔ (node, eventType) ∈ world.page.marks) ∧
      ∀ listener ∈ world.page.listenersOf node eventType, world.dispatch node eventType = world.notify listener := by
  have hlength := h.sound.paired node eventType
  refine ⟨?_, ?_, fun listener hmem => World.dispatch_of_singleton (h.sound.eq_singleton hmem)⟩
  · rw [hlength]
    split
    · exact Nat.le_refl 1
    · exact Nat.zero_le 1
  · rw [hlength]
    split
    · rename_i hmark
      exact iff_of_true rfl hmark
    · rename_i hmark
      exact iff_of_false Nat.zero_ne_one hmark

/-- A paragraph that goes away on a click is bound at the start, and scanned again. -/
def scannedTwice : MemorySession :=
  (MemorySession.begin "<p silta-events='\x7b\"click\":[[\"remove\",\x7b\"target\":\"p\"\x7d]]\x7d'></p>" {} []).after
    [.withClient 0 .start, .withClient 0 (.scan [.selector "p"])]

theorem sole_listener_scannedTwice :
    (2, "click") ∈ scannedTwice.world.page.marks ∧ (scannedTwice.world.page.listenersOf 2 "click").length = 1 := by
  have hmark : (2, "click") ∈ scannedTwice.world.page.marks := by decide +kernel
  have hreachable : Reachable scannedTwice.world := MemorySession.reachable _ _ _ _
  exact ⟨hmark, (sole_listener hreachable 2 "click").2.1.2 hmark⟩

end PageBindings.Script
