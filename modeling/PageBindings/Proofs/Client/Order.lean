import PageBindings.Proofs.Client.Change

/-!
# The order of binding

The event types of an element may be bound in any order.  `Client.scanInOrder` is a scan that takes them in a given
order, and `Client.scan` the one that takes them as they are read (`scan_eq_scanInOrder`).  In every order it only
binds (`binds_scanInOrder`), and the number that it gives is how many listeners there are more
(`length_listeners_scanInOrder`).
-/

namespace PageBindings.Client

open Relation (ReflTransGen)

variable {client : Client MemoryPage} {order : NodeId → Bindings → List (String × List Action)}

/-- The order takes all event types of an element, each once. -/
def Reorders (order : NodeId → Bindings → List (String × List Action)) : Prop :=
  ∀ node bindings, (order node bindings).Perm bindings.events

theorem reorders_events : Reorders fun _ bindings => bindings.events :=
  fun _ bindings => List.Perm.refl bindings.events

/-- Binds an element as part of a scan, with its event types in a given order. -/
def bindInOrder (order : NodeId → Bindings → List (String × List Action)) (client : Client MemoryPage)
    (scene : Scene MemoryPage) (node : NodeId) : Scene MemoryPage × Nat :=
  match scene.page.declared? client.settings.vocabulary node with
  | none => (scene, 0)
  | some (.error cause) => (scene.note (.unreadableBindings node cause), 0)
  | some (.ok bindings) =>
    client.bindEvents node (Page.view? scene.page client.settings.vocabulary node) scene (order node bindings)

/-- Scans roots, with the event types of each element in a given order. -/
def scanInOrder (order : NodeId → Bindings → List (String × List Action)) (client : Client MemoryPage)
    (scene : Scene MemoryPage) (roots : List NodeId) : Scene MemoryPage × Nat :=
  let (scene, found) := declaringElements client.settings.vocabulary.events scene roots
  found.foldl
    (fun (scene, added) node =>
      let (scene, more) := client.bindInOrder order scene node
      (scene, added + more))
    (scene, 0)

/-! ### The order in which they are read -/

private theorem bindReporting_eq (client : Client MemoryPage) (scene : Scene MemoryPage) (node : NodeId) :
    client.bindReporting scene node = client.bindInOrder (fun _ bindings => bindings.events) scene node := by
  unfold bindReporting bindInOrder
  rw [bind_eq]
  cases scene.page.declared? client.settings.vocabulary node with
  | none => rfl
  | some result => cases result <;> rfl

theorem scan_eq_scanInOrder (client : Client MemoryPage) (scene : Scene MemoryPage) (roots : List NodeId) :
    client.scan scene roots = client.scanInOrder (fun _ bindings => bindings.events) scene roots := by
  unfold scan scanInOrder
  simp only [bindReporting_eq]

/-! ### Any order -/

theorem fst_scanInOrder (client : Client MemoryPage) (scene : Scene MemoryPage) (roots : List NodeId) :
    (client.scanInOrder order scene roots).1 =
      (declaringElements client.settings.vocabulary.events scene roots).2.foldl
        (fun scene node => (client.bindInOrder order scene node).1)
        (declaringElements client.settings.vocabulary.events scene roots).1 :=
  fst_foldl_added (client.bindInOrder order) _ _ 0

theorem binds_bindInOrder (client : Client MemoryPage) (horder : Reorders order) (scene : Scene MemoryPage)
    (node : NodeId) : ReflTransGen client.Binds scene.page (client.bindInOrder order scene node).1.page := by
  unfold bindInOrder
  split
  · exact .refl
  · exact .refl
  · rename_i bindings h
    exact binds_bindEvents fun _ hevent => declares_of_mem h ((horder node bindings).mem_iff.1 hevent)

theorem binds_scanInOrder (client : Client MemoryPage) (horder : Reorders order) (scene : Scene MemoryPage)
    (roots : List NodeId) : ReflTransGen client.Binds scene.page (client.scanInOrder order scene roots).1.page := by
  rw [fst_scanInOrder, ← page_declaringElements client.settings.vocabulary.events scene roots]
  exact reflTransGen_foldl (fun scene node _ => binds_bindInOrder client horder scene node) _

/-- What counts its listeners one by one counts all of them. -/
private theorem length_foldl_added {α : Type} {f : Scene MemoryPage → α → Scene MemoryPage × Nat}
    (hf : ∀ scene x, (f scene x).1.page.listeners.length = scene.page.listeners.length + (f scene x).2)
    (xs : List α) (scene : Scene MemoryPage) (added : Nat) :
    (xs.foldl (fun (scene, added) x =>
      let (scene, more) := f scene x
      (scene, added + more)) (scene, added)).1.page.listeners.length + added =
    scene.page.listeners.length + (xs.foldl (fun (scene, added) x =>
      let (scene, more) := f scene x
      (scene, added + more)) (scene, added)).2 := by
  induction xs generalizing scene added with
  | nil => rfl
  | cons x rest ih =>
    have hrest := ih (f scene x).1 (added + (f scene x).2)
    have hone := hf scene x
    rw [List.foldl_cons]
    dsimp only at hrest ⊢
    omega

private theorem length_listeners_bindEvent {view : Option View} {node : NodeId} (scene : Scene MemoryPage)
    (event : String × List Action) : (client.bindEvent node view scene event).1.page.listeners.length =
      scene.page.listeners.length + (client.bindEvent node view scene event).2 := by
  rcases bindEvent_cases client node view scene event.1 event.2 with ⟨-, hpage, hadded⟩ | ⟨-, hpage, hadded⟩
  · rw [hpage, hadded, Nat.add_zero]
  · rw [hpage, hadded, List.length_append]
    rfl

private theorem length_listeners_bindInOrder (scene : Scene MemoryPage) (node : NodeId) :
    (client.bindInOrder order scene node).1.page.listeners.length =
      scene.page.listeners.length + (client.bindInOrder order scene node).2 := by
  unfold bindInOrder
  split
  · rfl
  · rfl
  · exact length_foldl_added (fun scene event => length_listeners_bindEvent scene event) _ scene 0

theorem length_listeners_bindReporting (client : Client MemoryPage) (scene : Scene MemoryPage) (node : NodeId) :
    (client.bindReporting scene node).1.page.listeners.length =
      scene.page.listeners.length + (client.bindReporting scene node).2 := by
  rw [bindReporting_eq]
  exact length_listeners_bindInOrder scene node

/-- The number that a scan gives is how many listeners it has added. -/
theorem length_listeners_scanInOrder (client : Client MemoryPage)
    (order : NodeId → Bindings → List (String × List Action)) (scene : Scene MemoryPage) (roots : List NodeId) :
    (client.scanInOrder order scene roots).1.page.listeners.length =
      scene.page.listeners.length + (client.scanInOrder order scene roots).2 := by
  rw [← page_declaringElements client.settings.vocabulary.events scene roots]
  exact length_foldl_added length_listeners_bindInOrder _ _ 0

theorem length_listeners_scan (client : Client MemoryPage) (scene : Scene MemoryPage) (roots : List NodeId) :
    (client.scan scene roots).1.page.listeners.length =
      scene.page.listeners.length + (client.scan scene roots).2 := by
  rw [scan_eq_scanInOrder]
  exact length_listeners_scanInOrder client _ scene roots

end PageBindings.Client
