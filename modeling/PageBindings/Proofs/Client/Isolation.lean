import PageBindings.Proofs.Client.Grafting
import PageBindings.Proofs.Client.Scanning
import PageBindings.Proofs.Document.Rewording

/-!
# A declaration concerns its own element alone

Take two pages that differ in the text with which one element declares its bindings, and in nothing else that a scan
looks at (`MemoryPage.Twins`).  A scan finds the same elements on both, and all others declare the same, so that it
leaves the same marks and listeners on them; whatever else it adds is on the one element
(`scan_isolates_declaration`).  An element whose declaration cannot be read gets nothing (`passesOver_scan`).
-/

namespace PageBindings

namespace MemoryPage

/-- All listeners of an element. -/
def listenersAt (page : MemoryPage) (node : NodeId) : List Listener :=
  page.listeners.filter (·.node == node)

/-- On the second page one element declares other bindings than on the first, and the same is bound on both. -/
structure Twins (marker : String) (e : NodeId) (page page' : MemoryPage) : Prop where
  document : page.document.Reworded marker e page'.document
  marks (mark : NodeId × String) : mark ∈ page.marks ↔ mark ∈ page'.marks
  listeners (n : NodeId) (eventType : String) : page.listenersOf n eventType = page'.listenersOf n eventType
  refused : Capability.listener ∈ page.refused ↔ Capability.listener ∈ page'.refused

end MemoryPage

namespace Client

variable {client : Client MemoryPage} {page page' : MemoryPage} {scene scene' : Scene MemoryPage} {e n : NodeId}
  {roots : List NodeId} {eventType : String}

/-- What a scan adds, listener by listener. -/
theorem exists_added_scan (client : Client MemoryPage) (scene : Scene MemoryPage) (roots : List NodeId) :
    ∃ added, client.Adds scene.page added (client.scan scene roots).1.page ∧
      (client.scan scene roots).2 = added.length := by
  obtain ⟨added, hadded⟩ := exists_bound (binds_scan client scene roots)
  have hlength := length_listeners_scan client scene roots
  rw [hadded.listeners, List.length_append] at hlength
  exact ⟨added, hadded, by omega⟩

/-! ### The element itself -/

/-- If the declaration of an element cannot be read, a scan leaves the element as it is, and so does binding it. -/
def PassesOver (client : Client MemoryPage) (scene : Scene MemoryPage) (roots : List NodeId) (e : NodeId) : Prop :=
  ∀ text selfTarget cause, Page.attribute? scene.page e client.settings.vocabulary.events = some text →
    Bindings.parse text selfTarget = .error cause →
      (∀ eventType, (e, eventType) ∈ (client.scan scene roots).1.page.marks ↔ (e, eventType) ∈ scene.page.marks) ∧
      (client.scan scene roots).1.page.listenersAt e = scene.page.listenersAt e ∧
      client.bind scene e = (scene, .error cause)

theorem passesOver_scan (client : Client MemoryPage) (scene : Scene MemoryPage) (roots : List NodeId) (e : NodeId) :
    client.PassesOver scene roots e := by
  intro text selfTarget cause written broken
  have hdeclared : scene.page.declared? client.settings.vocabulary e = some (.error cause) := by
    unfold MemoryPage.declared?
    rw [written, Option.map_some, Bindings.parse_eq_error broken]
  obtain ⟨added, hadded, -⟩ := exists_added_scan client scene roots
  have helsewhere : ∀ listener ∈ added, listener.node ≠ e := by
    rintro listener hmem rfl
    obtain ⟨bindings, hread, -⟩ := (hadded.declares listener hmem).actions
    rw [hdeclared] at hread
    simp at hread
  refine ⟨fun eventType => ?_, ?_, ?_⟩
  · rw [hadded.mem_marks_iff]
    refine or_iff_left fun hmark => ?_
    obtain ⟨listener, hmem, hat⟩ := List.mem_map.1 hmark
    exact helsewhere listener hmem (Prod.mk.inj hat).1
  · have hnone : added.filter (·.node == e) = [] :=
      List.filter_eq_nil_iff.2 fun listener hmem hat => helsewhere listener hmem (beq_iff_eq.1 hat)
    unfold MemoryPage.listenersAt
    rw [hadded.listeners, List.filter_append, hnone, List.append_nil]
  · rw [bind_eq, hdeclared]

/-! ### The other elements -/

/-- Other elements declare the same. -/
theorem declares_iff_of_ne (h : page.Twins client.settings.vocabulary.events e page') {listener : Listener}
    (hne : listener.node ≠ e) : client.Declares page listener ↔ client.Declares page' listener := by
  have hbare := h.document.bare?_of_ne hne
  have hdeclared := MemoryPage.declared?_congr hbare client.settings.vocabulary
  have hview := MemoryPage.view?_congr hbare client.settings.vocabulary
  constructor
  · rintro ⟨owner, view, actions⟩
    exact ⟨owner, hview ▸ view, hdeclared ▸ actions⟩
  · rintro ⟨owner, view, actions⟩
    exact ⟨owner, hview ▸ view, hdeclared ▸ actions⟩

/-- A scan finds the same elements, and leaves the same marks on all but the one. -/
theorem mem_marks_scan_iff_of_ne (h : scene.page.Twins client.settings.vocabulary.events e scene'.page) (hne : n ≠ e)
    (roots : List NodeId) (eventType : String) :
    (n, eventType) ∈ (client.scan scene roots).1.page.marks ↔
      (n, eventType) ∈ (client.scan scene' roots).1.page.marks := by
  have hannounces := MemoryPage.announces_congr (h.document.bare?_of_ne hne) client.settings.vocabulary eventType
  rw [mem_marks_scan, mem_marks_scan, h.marks, h.refused, h.document.declaringElements, hannounces]

theorem listenersOf_scan_of_ne (h : scene.page.Twins client.settings.vocabulary.events e scene'.page) (hne : n ≠ e)
    (roots : List NodeId) (eventType : String) :
    (client.scan scene roots).1.page.listenersOf n eventType =
      (client.scan scene' roots).1.page.listenersOf n eventType :=
  listenersOf_eq_of_marks (binds_scan client scene roots) (binds_scan client scene' roots) (h.marks _)
    (h.listeners n eventType) (mem_marks_scan_iff_of_ne h hne roots eventType)
    fun _ hnode => declares_iff_of_ne h (hnode ▸ hne)

/-! ### How many listeners there are more -/

/-- What a scan adds is on the element or elsewhere. -/
theorem Adds.length_eq {added : List Listener} (h : client.Adds page added page') (e : NodeId) :
    added.length = (added.filter ((·.1 != e) ∘ markOf)).length + (added.filter (·.node == e)).length ∧
      (page'.listenersAt e).length = (page.listenersAt e).length + (added.filter (·.node == e)).length := by
  constructor
  · rw [List.length_eq_length_filter_add (·.node == e), Nat.add_comm]
    rfl
  · unfold MemoryPage.listenersAt
    rw [h.listeners, List.filter_append, List.length_append]

/-- What the declaration of one element makes no difference to, and what it does make a difference to. -/
structure Isolated (client : Client MemoryPage) (scene scene' : Scene MemoryPage) (roots : List NodeId)
    (e : NodeId) : Prop where
  /-- Marks and listeners of all other elements are the same. -/
  others (n : NodeId) (hne : n ≠ e) (eventType : String) :
    ((n, eventType) ∈ (client.scan scene roots).1.page.marks ↔
      (n, eventType) ∈ (client.scan scene' roots).1.page.marks) ∧
    (client.scan scene roots).1.page.listenersOf n eventType =
      (client.scan scene' roots).1.page.listenersOf n eventType
  /-- The numbers differ by the listeners that were added on the element. -/
  counted : ∃ elsewhere own own', (client.scan scene roots).2 = elsewhere + own ∧
    (client.scan scene' roots).2 = elsewhere + own' ∧
    ((client.scan scene roots).1.page.listenersAt e).length = (scene.page.listenersAt e).length + own ∧
    ((client.scan scene' roots).1.page.listenersAt e).length = (scene'.page.listenersAt e).length + own'
  /-- A declaration that cannot be read adds nothing to the element. -/
  unreadable : client.PassesOver scene roots e ∧ client.PassesOver scene' roots e

theorem scan_isolates_declaration (h : scene.page.Twins client.settings.vocabulary.events e scene'.page)
    (roots : List NodeId) : client.Isolated scene scene' roots e where
  others n hne eventType :=
    ⟨mem_marks_scan_iff_of_ne h hne roots eventType, listenersOf_scan_of_ne h hne roots eventType⟩
  counted := by
    obtain ⟨added, hadded, hnumber⟩ := exists_added_scan client scene roots
    obtain ⟨added', hadded', hnumber'⟩ := exists_added_scan client scene' roots
    have hperm := hadded.perm_filter (p := (·.1 != e)) hadded' (fun mark _ => h.marks mark)
      (fun mark hp => mem_marks_scan_iff_of_ne h (bne_iff_ne.1 hp) roots mark.2)
      fun listener hp => declares_iff_of_ne h (bne_iff_ne.1 hp)
    obtain ⟨hsplit, hown⟩ := hadded.length_eq e
    obtain ⟨hsplit', hown'⟩ := hadded'.length_eq e
    rw [← hperm.length_eq] at hsplit'
    exact ⟨_, _, _, hnumber.trans hsplit, hnumber'.trans hsplit', hown, hown'⟩
  unreadable := ⟨passesOver_scan client scene roots e, passesOver_scan client scene' roots e⟩

/-- A paragraph with some declaration, and a quotation that declares bindings. -/
def declaring (declaration : String) : Scene MemoryPage :=
  { page := { document := ⟨#[
      { tag := "#document", children := [1, 2] },
      { tag := "p", attributes := [("silta-events", declaration)], parent := some 0 },
      { tag := "q", parent := some 0, attributes :=
          [("silta-events", "\x7b\"click\":[[\"reset\",\x7b\"target\":\"p\"\x7d]]\x7d")] }]⟩ } }

/-- Bindings for one event type. -/
def whole : String :=
  "\x7b\"click\":[[\"remove\",\x7b\"target\":\"q\"\x7d]]\x7d"

/-- The same bindings, and for another event type an action that does not exist. -/
def half : String :=
  "\x7b\"click\":[[\"remove\",\x7b\"target\":\"q\"\x7d]],\"input\":[[\"vanish\"]]\x7d"

theorem twins_declaring (declaration declaration' : String) :
    (declaring declaration).page.Twins "silta-events" 1 (declaring declaration').page :=
  ⟨.of_singleton rfl rfl rfl, fun _ => .rfl, fun _ _ => rfl, .rfl⟩

theorem scan_isolates_declaration_half :
    (2, "click") ∈ (scanner.scan (declaring half) [0]).1.page.marks ∧
      (scanner.scan (declaring whole) [0]).2 = 2 ∧ (scanner.scan (declaring half) [0]).2 = 1 ∧
      (scanner.scan (declaring half) [0]).1.page.listenersAt 1 = [] ∧
      ∃ cause, scanner.bind (declaring half) 1 = (declaring half, .error cause) := by
  have hlaw : scanner.Isolated (declaring whole) (declaring half) [0] 1 :=
    scan_isolates_declaration (twins_declaring whole half) [0]
  obtain ⟨cause, hbroken⟩ : ∃ cause, Bindings.parse half none = .error cause := by
    have hfails : (Bindings.parse half none).isOk = false := by decide +kernel
    cases hparse : Bindings.parse half none with
    | error cause => exact ⟨cause, rfl⟩
    | ok bindings => simp [hparse, Except.isOk, Except.toBool] at hfails
  obtain ⟨-, hnothing, hbind⟩ := hlaw.unreadable.2 half none cause rfl hbroken
  obtain ⟨elsewhere, own, own', hnumber, hnumber', hown, hown'⟩ := hlaw.counted
  have htwo : (scanner.scan (declaring whole) [0]).2 = 2 := by decide +kernel
  have hone : ((scanner.scan (declaring whole) [0]).1.page.listenersAt 1).length = 1 := by decide +kernel
  have hnone : ∀ declaration, ((declaring declaration).page.listenersAt 1).length = 0 := fun _ => rfl
  have hmark : (2, "click") ∈ (scanner.scan (declaring whole) [0]).1.page.marks := by decide +kernel
  rw [hone, hnone] at hown
  rw [hnothing, hnone] at hown'
  exact ⟨(hlaw.others 2 (by decide) "click").1.1 hmark, htwo, by omega, hnothing, cause, hbind⟩

end Client

end PageBindings
