import Mathlib.Data.List.Pairwise
import PageBindings.Proofs.Client.Coverage
import PageBindings.Proofs.Client.Order
import PageBindings.Proofs.World.Listeners

/-!
# What a scan marks

A scan marks an event type on an element exactly if it finds the element, the element declares the type and the page
allows listeners (`mem_marks_scanInOrder`).  Of roots none of which lies in another all are searched, so that an
element below one of them is marked as if that were the only one (`mem_marks_scan_of_above`).  With each new mark
comes one listener (`length_listenersOf_of_binds`).
-/

namespace PageBindings

open Relation (ReflTransGen)

variable {client : Client MemoryPage} {page page' : MemoryPage} {scene : Scene MemoryPage} {node n root : NodeId}
  {roots : List NodeId} {eventType marker : String} {mark : NodeId × String}

namespace MemoryPage

/-- The element declares actions for the event type. -/
def Announces (page : MemoryPage) (names : Vocabulary) (node : NodeId) (eventType : String) : Prop :=
  ∃ bindings, page.declared? names node = some (.ok bindings) ∧ eventType ∈ bindings.events.map Prod.fst

/-- The element is one that a search for the attribute is after. -/
def Searched (page : MemoryPage) (marker : String) (node : NodeId) : Prop :=
  ∃ conditions, Selector.parse? ("[" ++ marker ++ "]") = some conditions ∧
    page.document.isMatch conditions node = true

/-- Neither of two elements lies in the other. -/
def Apart (page : MemoryPage) (a b : NodeId) : Prop :=
  page.document.contains a b = false ∧ page.document.contains b a = false

instance apart_symm (page : MemoryPage) : Std.Symm page.Apart :=
  ⟨fun _ _ h => ⟨h.2, h.1⟩⟩

theorem announces_of_binds {names : Vocabulary} (h : ReflTransGen client.Binds page page') :
    page'.Announces names node eventType ↔ page.Announces names node eventType := by
  unfold Announces
  rw [declared?_of_binds h]

theorem Announces.hasAttribute {names : Vocabulary} (h : page.Announces names node eventType) :
    Page.hasAttribute page node names.events = true := by
  obtain ⟨bindings, hdeclared, -⟩ := h
  obtain ⟨text, htext, -⟩ := Option.map_eq_some_iff.1 hdeclared
  unfold Page.hasAttribute
  rw [htext]
  rfl

end MemoryPage

/-! ### Roots that are apart -/

private theorem addOutermost_of_apart {kept : List NodeId} (h : ∀ other ∈ kept, page.Apart other root) :
    addOutermost page kept root = kept ++ [root] := by
  have hany : (kept.any fun other => Page.contains page other root) = false := by
    rw [List.any_eq_false]
    intro other hother
    have hout : Page.contains page other root = false := (h other hother).1
    rw [hout]
    exact Bool.false_ne_true
  have hfilter : kept.filter (fun other => !Page.contains page root other) = kept := by
    refine List.filter_eq_self.2 fun other hother => ?_
    have hout : Page.contains page root other = false := (h other hother).2
    rw [hout]
    rfl
  unfold addOutermost
  rw [hany, hfilter]
  rfl

/-- Roots that are apart are all kept. -/
theorem outermost_of_apart (h : roots.Pairwise page.Apart) : outermost page roots = roots := by
  unfold outermost
  suffices ∀ kept, (kept ++ roots).Pairwise page.Apart → roots.foldl (addOutermost page) kept = kept ++ roots from
    this [] h
  clear h
  induction roots with
  | nil => exact fun kept _ => (List.append_nil kept).symm
  | cons root rest ih =>
    intro kept h
    have hkept : ∀ other ∈ kept, page.Apart other root := fun other hother =>
      (List.pairwise_append.1 h).2.2 other hother root List.mem_cons_self
    rw [List.foldl_cons, addOutermost_of_apart hkept, ih (kept ++ [root]) (by rwa [List.append_assoc]),
      List.append_assoc, List.singleton_append]

/-- An element is found below a root if it is the root and has the attribute, or is one that the search is after. -/
private theorem mem_declaringBelow_iff_searched :
    n ∈ (declaringBelow marker scene root).2 ↔ (n = root ∧ Page.hasAttribute scene.page n marker = true) ∨
      (n ∈ scene.page.document.descendants root ∧ scene.page.Searched marker n) := by
  have hown : n ∈ (if Page.hasAttribute scene.page root marker then [root] else []) ↔
      n = root ∧ Page.hasAttribute scene.page n marker = true := by
    constructor
    · intro h
      split at h
      · rename_i hattribute
        obtain rfl := List.mem_singleton.1 h
        exact ⟨rfl, hattribute⟩
      · simp at h
    · rintro ⟨rfl, hattribute⟩
      rw [if_pos hattribute]
      exact List.mem_singleton_self n
  unfold declaringBelow MemoryPage.Searched
  simp only [Page.query, MemoryPage.query]
  cases hparse : Selector.parse? ("[" ++ marker ++ "]") with
  | none => simp only [hown, reduceCtorEq, false_and, exists_false, and_false, or_false]
  | some conditions =>
    simp only [List.mem_append, hown, Document.query, List.mem_filter, Option.getD_some, Option.some.injEq,
      exists_eq_left']

namespace Client

/-! ### Marks -/

private theorem mem_marks_bindEvent {view : Option View} {event : String × List Action} :
    mark ∈ (client.bindEvent node view scene event).1.page.marks ↔ mark ∈ scene.page.marks ∨
      (MemoryPage.Capability.listener ∉ scene.page.refused ∧ mark = (node, event.1)) := by
  rcases bindEvent_cases client node view scene event.1 event.2 with ⟨hwhy, hpage, -⟩ | ⟨hwhy, hpage, -⟩
  · rw [hpage]
    refine ⟨.inl, ?_⟩
    rintro (h | ⟨hallowed, rfl⟩)
    · exact h
    · exact hwhy.resolve_right hallowed
  · rw [hpage, List.mem_cons, or_comm]
    exact or_congr_right (and_iff_right hwhy.2).symm

private theorem refused_bindEvent {view : Option View} {event : String × List Action} :
    (client.bindEvent node view scene event).1.page.refused = scene.page.refused := by
  rcases bindEvent_cases client node view scene event.1 event.2 with ⟨-, hpage, -⟩ | ⟨-, hpage, -⟩
  · rw [hpage]
  · rw [hpage]

private theorem mem_marks_bindEvents {view : Option View} {events : List (String × List Action)} :
    mark ∈ (client.bindEvents node view scene events).1.page.marks ↔ mark ∈ scene.page.marks ∨
      (MemoryPage.Capability.listener ∉ scene.page.refused ∧ mark.1 = node ∧ mark.2 ∈ events.map Prod.fst) := by
  rw [bindEvents_eq]
  induction events generalizing scene with
  | nil => simp
  | cons event rest ih =>
    rw [List.foldl_cons, ih, mem_marks_bindEvent, refused_bindEvent, List.map_cons, List.mem_cons, or_assoc,
      ← and_or_left, Prod.ext_iff, ← and_or_left]

private theorem mem_marks_bindInOrder {order : NodeId → Bindings → List (String × List Action)}
    (horder : Reorders order) :
    mark ∈ (client.bindInOrder order scene node).1.page.marks ↔ mark ∈ scene.page.marks ∨
      (MemoryPage.Capability.listener ∉ scene.page.refused ∧ mark.1 = node ∧
        scene.page.Announces client.settings.vocabulary mark.1 mark.2) := by
  unfold bindInOrder MemoryPage.Announces
  cases hdeclared : scene.page.declared? client.settings.vocabulary node with
  | none =>
    refine ⟨.inl, ?_⟩
    rintro (h | ⟨-, rfl, bindings, hb, -⟩)
    · exact h
    · simp [hdeclared] at hb
  | some result =>
    cases result with
    | error cause =>
      refine ⟨.inl, ?_⟩
      rintro (h | ⟨-, rfl, bindings, hb, -⟩)
      · exact h
      · simp [hdeclared] at hb
    | ok bindings =>
      dsimp only
      rw [mem_marks_bindEvents, ((horder node bindings).map Prod.fst).mem_iff]
      refine or_congr_right (and_congr_right fun _ => and_congr_right fun hnode => ?_)
      rw [hnode, hdeclared]
      simp

/-- A scan marks what the elements that it finds declare, in whatever order their event types are bound. -/
theorem mem_marks_scanInOrder {order : NodeId → Bindings → List (String × List Action)} (horder : Reorders order) :
    mark ∈ (client.scanInOrder order scene roots).1.page.marks ↔ mark ∈ scene.page.marks ∨
      (MemoryPage.Capability.listener ∉ scene.page.refused ∧
        mark.1 ∈ (declaringElements client.settings.vocabulary.events scene roots).2 ∧
        scene.page.Announces client.settings.vocabulary mark.1 mark.2) := by
  rw [fst_scanInOrder, ← page_declaringElements client.settings.vocabulary.events scene roots]
  generalize (declaringElements client.settings.vocabulary.events scene roots).1 = start
  generalize (declaringElements client.settings.vocabulary.events scene roots).2 = found
  induction found generalizing start with
  | nil => simp
  | cons first rest ih =>
    have hone := binds_bindInOrder client horder start first
    rw [List.foldl_cons, ih, mem_marks_bindInOrder horder, refused_of_binds hone, MemoryPage.announces_of_binds hone,
      List.mem_cons, or_assoc, ← and_or_left, ← or_and_right]

theorem mem_marks_scan :
    mark ∈ (client.scan scene roots).1.page.marks ↔ mark ∈ scene.page.marks ∨
      (MemoryPage.Capability.listener ∉ scene.page.refused ∧
        mark.1 ∈ (declaringElements client.settings.vocabulary.events scene roots).2 ∧
        scene.page.Announces client.settings.vocabulary mark.1 mark.2) := by
  rw [scan_eq_scanInOrder]
  exact mem_marks_scanInOrder reorders_events

/-- Of roots that are apart only the one above an element matters. -/
theorem mem_marks_scan_of_above (hf : scene.page.document.Forest) (hapart : roots.Pairwise scene.page.Apart)
    (hroot : root ∈ roots) (hn : scene.page.document.Above root n) :
    (n, eventType) ∈ (client.scan scene roots).1.page.marks ↔ (n, eventType) ∈ scene.page.marks ∨
      (MemoryPage.Capability.listener ∉ scene.page.refused ∧
        (n = root ∨ scene.page.Searched client.settings.vocabulary.events n) ∧
        scene.page.Announces client.settings.vocabulary n eventType) := by
  rw [mem_marks_scan]
  refine or_congr_right (and_congr_right fun _ => and_congr_left fun hannounces => ?_)
  rw [(declaringElements_eq _ _ _).2, outermost_of_apart hapart, List.mem_flatMap]
  constructor
  · rintro ⟨other, hother, hfound⟩
    rcases mem_declaringBelow_iff_searched.1 hfound with ⟨rfl, -⟩ | ⟨-, hsearched⟩
    · left
      by_contra hne
      have hout : scene.page.document.contains root n = false := (hapart.forall hroot hother (Ne.symm hne)).1
      rw [hf.contains_iff.2 hn] at hout
      exact Bool.noConfusion hout
    · exact .inr hsearched
  · intro h
    refine ⟨root, hroot, mem_declaringBelow_iff_searched.2 ?_⟩
    rcases Document.above_iff_eq_or_properlyAbove.1 hn with rfl | hbelow
    · exact .inl ⟨rfl, hannounces.hasAttribute⟩
    · exact .inr ⟨hf.mem_descendants_iff.2 hbelow, h.resolve_left fun he => hf.acyclic root (he ▸ hbelow)⟩

/-- An element that is below none of the roots is not marked. -/
theorem mem_marks_scan_of_not_above (hf : scene.page.document.Forest)
    (hn : ∀ root ∈ roots, ¬ scene.page.document.Above root n) :
    (n, eventType) ∈ (client.scan scene roots).1.page.marks ↔ (n, eventType) ∈ scene.page.marks := by
  rw [mem_marks_scan]
  refine ⟨fun h => h.resolve_right ?_, .inl⟩
  rintro ⟨-, hfound, -⟩
  rw [(declaringElements_eq _ _ _).2, List.mem_flatMap] at hfound
  obtain ⟨root, hroot, hfound⟩ := hfound
  refine hn root (mem_of_mem_outermost hroot) (Document.above_iff_eq_or_properlyAbove.2 ?_)
  rcases mem_declaringBelow_iff_searched.1 hfound with ⟨he, -⟩ | ⟨hbelow, -⟩
  · exact .inl he.symm
  · exact .inr (hf.mem_descendants_iff.1 hbelow)

/-! ### Listeners -/

/-- A listener is added exactly where a mark is. -/
theorem length_listenersOf_of_binds (h : ReflTransGen client.Binds page page') (n : NodeId) (eventType : String) :
    (page'.listenersOf n eventType).length = (page.listenersOf n eventType).length +
      if (n, eventType) ∈ page'.marks ∧ (n, eventType) ∉ page.marks then 1 else 0 := by
  induction h with
  | refl => simp
  | @tail middle last hfirst hlast ih =>
    have hsub := marks_subset_of_binds hfirst
    cases hlast with
    | @intro listener _ fresh _ =>
      rw [MemoryPage.listenersOf_append, List.length_append, ih, Nat.add_assoc]
      congr 1
      by_cases he : listener.node = n ∧ listener.eventType = eventType
      · obtain ⟨rfl, rfl⟩ := he
        have hold : (listener.node, listener.eventType) ∉ page.marks := fun hmark => fresh (hsub hmark)
        simp [fresh, hold]
      · have hne : (n, eventType) ≠ (listener.node, listener.eventType) := by
          intro h
          exact he ⟨(Prod.mk.inj h).1.symm, (Prod.mk.inj h).2.symm⟩
        simp [he, hne]

end Client

end PageBindings
