import PageBindings.Proofs.Client.Marks
import PageBindings.Proofs.Page.Views

/-!
# What a scan depends on

What a client binds is settled by the marks: each new mark comes with the one listener that its element declares
(`exists_bound`), so that of two ways to bind that leave the same marks one adds the same listeners as the other
(`listenersOf_eq_of_marks`).  A scan marks what is declared at and below its roots.  So neither the order of the roots
matters nor that of the event types of an element, and a second scan of the same part of a document adds nothing
(`scan_depends_on_cover`).
-/

namespace PageBindings.Client

open Relation (ReflTransGen)

variable {client : Client MemoryPage} {page page' one other : MemoryPage} {scene : Scene MemoryPage}
  {roots roots' : List NodeId}

/-! ### Listeners and their marks -/

/-- The mark that comes with a listener. -/
def markOf (listener : Listener) : NodeId × String :=
  (listener.node, listener.eventType)

/-- An element declares one listener for an event type. -/
theorem Declares.unique {listener listener' : Listener} (h : client.Declares page listener)
    (h' : client.Declares page listener') (hmark : markOf listener = markOf listener') : listener = listener' := by
  obtain ⟨node, eventType, ref, view, actions⟩ := listener
  obtain ⟨node', eventType', ref', view', actions'⟩ := listener'
  obtain ⟨rfl, rfl⟩ := Prod.mk.inj hmark
  obtain ⟨href, hview, bindings, hdeclared, hactions⟩ := h
  obtain ⟨href', hview', bindings', hdeclared', hactions'⟩ := h'
  obtain rfl := Except.ok.inj (Option.some.inj (hdeclared.symm.trans hdeclared'))
  obtain rfl := Option.some.inj (hactions.symm.trans hactions')
  obtain rfl := href.trans href'.symm
  obtain rfl := hview.trans hview'.symm
  rfl

/-- The listeners that a client has added to a page, each with a mark of its own. -/
structure Adds (client : Client MemoryPage) (page : MemoryPage) (added : List Listener) (page' : MemoryPage) :
    Prop where
  listeners : page'.listeners = page.listeners ++ added
  mem_marks_iff (mark : NodeId × String) : mark ∈ page'.marks ↔ mark ∈ page.marks ∨ mark ∈ added.map markOf
  fresh : ∀ listener ∈ added, markOf listener ∉ page.marks
  nodup : (added.map markOf).Nodup
  declares : ∀ listener ∈ added, client.Declares page listener

theorem adds_nil (client : Client MemoryPage) (page : MemoryPage) : client.Adds page [] page :=
  ⟨by simp, by simp, by simp, by simp, by simp⟩

/-- Elements keep what they declare, whatever else is put in. -/
theorem Adds.of_keeps {added : List Listener} (h : client.Adds page added page')
    (hkeeps : page.document.Keeps one.document) (hmarks : one.marks = page.marks)
    (hlisteners : one.listeners = page.listeners) (hmarks' : other.marks = page'.marks)
    (hlisteners' : other.listeners = page'.listeners) : client.Adds one added other where
  listeners := by rw [hlisteners, hlisteners', h.listeners]
  mem_marks_iff mark := by rw [hmarks, hmarks', h.mem_marks_iff]
  fresh listener hmem := by
    rw [hmarks]
    exact h.fresh listener hmem
  nodup := h.nodup
  declares listener hmem := (h.declares listener hmem).of_keeps hkeeps

theorem Adds.trans {added more : List Listener} (h : client.Adds page added page') (h' : client.Adds page' more one)
    (hdocument : page'.document = page.document) : client.Adds page (added ++ more) one where
  listeners := by rw [h'.listeners, h.listeners, List.append_assoc]
  mem_marks_iff mark := by rw [h'.mem_marks_iff, h.mem_marks_iff, List.map_append, List.mem_append, or_assoc]
  fresh listener hmem := by
    rcases List.mem_append.1 hmem with hold | hnew
    · exact h.fresh listener hold
    · exact fun hmark => h'.fresh listener hnew ((h.mem_marks_iff _).2 (.inl hmark))
  nodup := by
    rw [List.map_append]
    refine h.nodup.append h'.nodup fun mark hold hnew => ?_
    obtain ⟨listener, hmem, rfl⟩ := List.mem_map.1 hnew
    exact h'.fresh listener hmem ((h.mem_marks_iff _).2 (.inr hold))
  declares listener hmem := by
    have hkeeps : page'.document.Keeps page.document := hdocument ▸ Document.Keeps.refl _
    rcases List.mem_append.1 hmem with hold | hnew
    · exact h.declares listener hold
    · exact (h'.declares listener hnew).of_keeps hkeeps

theorem Binds.adds (h : client.Binds page page') : ∃ listener, client.Adds page [listener] page' := by
  cases h with
  | @intro listener _ fresh declares =>
    refine ⟨listener, rfl, fun mark => ?_, fun other hother => ?_, List.nodup_singleton _, fun other hother => ?_⟩
    · rw [List.mem_cons, List.map_singleton, List.mem_singleton, or_comm]
      rfl
    · exact List.mem_singleton.1 hother ▸ fresh
    · exact List.mem_singleton.1 hother ▸ declares

theorem exists_bound (h : ReflTransGen client.Binds page page') : ∃ added, client.Adds page added page' := by
  induction h with
  | refl => exact ⟨[], client.adds_nil page⟩
  | tail hfirst hlast ih =>
    obtain ⟨added, hadded⟩ := ih
    obtain ⟨listener, hone⟩ := hlast.adds
    exact ⟨added ++ [listener], hadded.trans hone (document_of_binds hfirst)⟩

/-- Ways to bind that leave the same marks somewhere, where the same is declared, have added the same listeners. -/
theorem Adds.perm_filter {start start' : MemoryPage} {added added' : List Listener} {p : NodeId × String → Bool}
    (h : client.Adds start added one) (h' : client.Adds start' added' other)
    (hstart : ∀ mark, p mark = true → (mark ∈ start.marks ↔ mark ∈ start'.marks))
    (hmarks : ∀ mark, p mark = true → (mark ∈ one.marks ↔ mark ∈ other.marks))
    (hdeclares : ∀ listener, p (markOf listener) = true →
      (client.Declares start listener ↔ client.Declares start' listener)) :
    (added.filter (p ∘ markOf)).Perm (added'.filter (p ∘ markOf)) := by
  -- a listener of the one has its mark on the page of the other, where only the same listener can have put it
  have hsub : ∀ {start start' one other : MemoryPage} {added added' : List Listener}, client.Adds start added one →
      client.Adds start' added' other → (∀ mark, p mark = true → (mark ∈ start.marks ↔ mark ∈ start'.marks)) →
      (∀ mark, p mark = true → (mark ∈ one.marks ↔ mark ∈ other.marks)) →
      (∀ listener, p (markOf listener) = true →
        (client.Declares start listener ↔ client.Declares start' listener)) →
      added.filter (p ∘ markOf) ⊆ added'.filter (p ∘ markOf) := by
    intro start start' one other added added' h h' hstart hmarks hdeclares listener hmem
    obtain ⟨hmem, hp⟩ := List.mem_filter.1 hmem
    have hmark := (hmarks _ hp).1 ((h.mem_marks_iff _).2 (.inr (List.mem_map_of_mem hmem)))
    have hfresh := (not_congr (hstart _ hp)).1 (h.fresh _ hmem)
    obtain ⟨listener', hmem', heq⟩ := List.mem_map.1 (((h'.mem_marks_iff _).1 hmark).resolve_left hfresh)
    have hsame := ((hdeclares _ hp).1 (h.declares _ hmem)).unique (h'.declares _ hmem') heq.symm
    exact List.mem_filter.2 ⟨hsame ▸ hmem', hp⟩
  have hnodup := h.nodup.of_map.filter (p ∘ markOf)
  have hnodup' := h'.nodup.of_map.filter (p ∘ markOf)
  refine (List.perm_ext_iff_of_nodup hnodup hnodup').2 fun listener => ⟨fun hmem => ?_, fun hmem => ?_⟩
  · exact hsub h h' hstart hmarks hdeclares hmem
  · exact hsub h' h (fun mark hp => (hstart mark hp).symm) (fun mark hp => (hmarks mark hp).symm)
      (fun listener hp => (hdeclares listener hp).symm) hmem

/-- At most one of the added listeners is for an event type of an element. -/
theorem Adds.filter_eq {added added' : List Listener} {mark : NodeId × String} (h : client.Adds page added one)
    (hperm : (added.filter ((· == mark) ∘ markOf)).Perm (added'.filter ((· == mark) ∘ markOf))) :
    added.filter ((· == mark) ∘ markOf) = added'.filter ((· == mark) ∘ markOf) := by
  have hmark : ∀ listener ∈ added.filter ((· == mark) ∘ markOf), markOf listener = mark :=
    fun listener hmem => beq_iff_eq.1 (List.mem_filter.1 hmem).2
  have hnodup : ((added.filter ((· == mark) ∘ markOf)).map markOf).Nodup :=
    h.nodup.sublist (List.filter_sublist.map markOf)
  generalize added.filter ((· == mark) ∘ markOf) = found at hperm hmark hnodup ⊢
  match found with
  | [] => exact hperm.nil_eq
  | [listener] => exact List.singleton_perm.1 hperm
  | first :: second :: rest =>
    have hsame : markOf first = markOf second :=
      (hmark first List.mem_cons_self).trans (hmark second (List.mem_cons_of_mem _ List.mem_cons_self)).symm
    rw [List.map_cons, List.map_cons, hsame] at hnodup
    exact absurd List.mem_cons_self (List.nodup_cons.1 hnodup).1

theorem Adds.listenersOf {added : List Listener} (h : client.Adds page added page') (node : NodeId)
    (eventType : String) : page'.listenersOf node eventType =
      page.listenersOf node eventType ++ added.filter ((· == (node, eventType)) ∘ markOf) := by
  unfold MemoryPage.listenersOf
  rw [h.listeners, List.filter_append]
  rfl

theorem length_listeners_eq_of_marks (h : ReflTransGen client.Binds page one)
    (h' : ReflTransGen client.Binds page other) (hmarks : ∀ mark, mark ∈ one.marks ↔ mark ∈ other.marks) :
    one.listeners.length = other.listeners.length := by
  obtain ⟨added, hadded⟩ := exists_bound h
  obtain ⟨added', hadded'⟩ := exists_bound h'
  have hperm := hadded.perm_filter (p := fun _ => true) hadded' (fun _ _ => .rfl) (fun mark _ => hmarks mark)
    fun _ _ => .rfl
  have hall : ∀ listeners : List Listener, listeners.filter ((fun _ => true) ∘ markOf) = listeners :=
    fun listeners => List.filter_eq_self.2 fun _ _ => rfl
  rw [hall, hall] at hperm
  rw [hadded.listeners, hadded'.listeners, List.length_append, List.length_append, hperm.length_eq]

/-- Where the same mark is left and the same was declared, there are the same listeners. -/
theorem Adds.listenersOf_eq {start start' : MemoryPage} {added added' : List Listener} {node : NodeId}
    {eventType : String} (h : client.Adds start added one) (h' : client.Adds start' added' other)
    (hstart : (node, eventType) ∈ start.marks ↔ (node, eventType) ∈ start'.marks)
    (hlisteners : start.listenersOf node eventType = start'.listenersOf node eventType)
    (hmarks : (node, eventType) ∈ one.marks ↔ (node, eventType) ∈ other.marks)
    (hdeclares : ∀ listener : Listener, listener.node = node →
      (client.Declares start listener ↔ client.Declares start' listener)) :
    one.listenersOf node eventType = other.listenersOf node eventType := by
  have hperm := h.perm_filter (p := (· == (node, eventType))) h'
    (fun mark hp => beq_iff_eq.1 hp ▸ hstart) (fun mark hp => beq_iff_eq.1 hp ▸ hmarks)
    fun listener hp => hdeclares listener (Prod.mk.inj (beq_iff_eq.1 hp)).1
  rw [h.listenersOf, h'.listenersOf, hlisteners, h.filter_eq hperm]

theorem listenersOf_eq_of_marks {start start' : MemoryPage} {node : NodeId} {eventType : String}
    (h : ReflTransGen client.Binds start one) (h' : ReflTransGen client.Binds start' other)
    (hstart : (node, eventType) ∈ start.marks ↔ (node, eventType) ∈ start'.marks)
    (hlisteners : start.listenersOf node eventType = start'.listenersOf node eventType)
    (hmarks : (node, eventType) ∈ one.marks ↔ (node, eventType) ∈ other.marks)
    (hdeclares : ∀ listener : Listener, listener.node = node →
      (client.Declares start listener ↔ client.Declares start' listener)) :
    one.listenersOf node eventType = other.listenersOf node eventType := by
  obtain ⟨added, hadded⟩ := exists_bound h
  obtain ⟨added', hadded'⟩ := exists_bound h'
  exact hadded.listenersOf_eq hadded' hstart hlisteners hmarks hdeclares

/-- Where no mark is new no listener is. -/
theorem listenersOf_of_binds {node : NodeId} {eventType : String} (h : ReflTransGen client.Binds page page')
    (hmark : (node, eventType) ∈ page'.marks → (node, eventType) ∈ page.marks) :
    page'.listenersOf node eventType = page.listenersOf node eventType := by
  obtain ⟨added, hadded⟩ := exists_bound h
  have hlength := length_listenersOf_of_binds h node eventType
  rw [if_neg fun hnew => hnew.2 (hmark hnew.1), Nat.add_zero, hadded.listenersOf, List.length_append] at hlength
  rw [hadded.listenersOf, List.length_eq_zero_iff.1 (Nat.add_eq_left.1 hlength), List.append_nil]

/-- Where a mark is new there is one more listener, which is the client's. -/
theorem exists_listenersOf_of_binds {node : NodeId} {eventType : String} (h : ReflTransGen client.Binds page page')
    (hfresh : (node, eventType) ∉ page.marks) (hmark : (node, eventType) ∈ page'.marks) :
    ∃ listener, page'.listenersOf node eventType = page.listenersOf node eventType ++ [listener] ∧
      client.Declares page' listener := by
  obtain ⟨added, hadded⟩ := exists_bound h
  have hlength := length_listenersOf_of_binds h node eventType
  rw [if_pos ⟨hmark, hfresh⟩, hadded.listenersOf, List.length_append] at hlength
  obtain ⟨listener, hlistener⟩ := List.length_eq_one_iff.1 (Nat.add_left_cancel hlength)
  refine ⟨listener, by rw [hadded.listenersOf, hlistener], ?_⟩
  have hmem : listener ∈ added.filter ((· == (node, eventType)) ∘ markOf) := by
    rw [hlistener]
    exact List.mem_singleton_self listener
  refine (hadded.declares listener (List.mem_filter.1 hmem).1).of_keeps ?_
  rw [document_of_binds h]
  exact Document.Keeps.refl _

/-- A page that refuses listeners stays as it is. -/
theorem eq_of_binds_of_refused (h : ReflTransGen client.Binds page page')
    (refused : MemoryPage.Capability.listener ∈ page.refused) : page' = page := by
  rcases Relation.ReflTransGen.cases_head h with heq | ⟨middle, hfirst, -⟩
  · exact heq.symm
  · cases hfirst with
    | intro allowed => exact absurd refused allowed

/-- A client that has added no mark has done nothing. -/
theorem eq_of_binds_of_marks (h : ReflTransGen client.Binds page page') (hmarks : page'.marks ⊆ page.marks) :
    page' = page := by
  rcases Relation.ReflTransGen.cases_head h with heq | ⟨middle, hfirst, hrest⟩
  · exact heq.symm
  · cases hfirst with
    | intro _ fresh _ => exact absurd (hmarks (marks_subset_of_binds hrest List.mem_cons_self)) fresh

/-! ### Scans -/

/-- The nodes at and below one list of roots are those at and below another. -/
def SameCover (document : Document) (roots roots' : List NodeId) : Prop :=
  ∀ node, (∃ root ∈ roots, document.Above root node) ↔ ∃ root ∈ roots', document.Above root node

/-- What a scan of roots gives, in whatever order it binds the event types of each element. -/
inductive Scans (client : Client MemoryPage) (scene : Scene MemoryPage) (roots : List NodeId) :
    Scene MemoryPage × Nat → Prop
  | inOrder {order : NodeId → Bindings → List (String × List Action)} (reorders : Reorders order) :
      Scans client scene roots (client.scanInOrder order scene roots)

variable {result result' : Scene MemoryPage × Nat}

theorem Scans.binds (h : client.Scans scene roots result) : ReflTransGen client.Binds scene.page result.1.page := by
  cases h with
  | inOrder reorders => exact binds_scanInOrder client reorders scene roots

theorem Scans.length_listeners (h : client.Scans scene roots result) :
    result.1.page.listeners.length = scene.page.listeners.length + result.2 := by
  cases h with
  | inOrder => exact length_listeners_scanInOrder client _ scene roots

/-- A scan marks what is declared at and below its roots, if the page allows listeners. -/
theorem Scans.mem_marks_iff (h : client.Scans scene roots result) (hf : scene.page.document.Forest)
    (hnames : ∀ c ∈ client.settings.vocabulary.events.toList, Selector.isNameChar c = true) (mark : NodeId × String) :
    mark ∈ result.1.page.marks ↔ mark ∈ scene.page.marks ∨
      (MemoryPage.Capability.listener ∉ scene.page.refused ∧
        (∃ root ∈ roots, scene.page.document.Above root mark.1) ∧
        scene.page.Announces client.settings.vocabulary mark.1 mark.2) := by
  cases h with
  | inOrder reorders =>
    rw [mem_marks_scanInOrder reorders, mem_declaringElements_iff hf hnames]
    refine or_congr_right (and_congr_right fun _ => and_congr_left fun hannounces => ?_)
    exact and_iff_right hannounces.hasAttribute

/-- What a scan does is a matter of the part of the document that its roots cover. -/
structure ScanLaw (client : Client MemoryPage) (scene : Scene MemoryPage) (roots roots' : List NodeId) : Prop where
  /-- The order in which event types are read is one of those in which they may be bound. -/
  asRead (scene : Scene MemoryPage) (roots : List NodeId) : client.Scans scene roots (client.scan scene roots)
  /-- Roots that cover the same get the same number, marks and listeners. -/
  alike {result result' : Scene MemoryPage × Nat} (h : client.Scans scene roots result)
    (h' : client.Scans scene roots' result') :
    result.2 = result'.2 ∧ (∀ mark, mark ∈ result.1.page.marks ↔ mark ∈ result'.1.page.marks) ∧
      ∀ node eventType, result.1.page.listenersOf node eventType = result'.1.page.listenersOf node eventType
  /-- The number is how many listeners there are more. -/
  counted {result : Scene MemoryPage × Nat} (h : client.Scans scene roots result) :
    result.1.page.listeners.length = scene.page.listeners.length + result.2
  /-- A scan of what was covered adds nothing, unless listeners were refused. -/
  again {result next : Scene MemoryPage × Nat} {inner : List NodeId} (h : client.Scans scene roots result)
    (allowed : MemoryPage.Capability.listener ∉ scene.page.refused)
    (covered : ∀ root' ∈ inner, ∃ root ∈ roots, scene.page.document.Above root root')
    (h' : client.Scans result.1 inner next) : next.2 = 0 ∧ next.1.page = result.1.page

theorem scan_depends_on_cover (hf : scene.page.document.Forest)
    (hnames : ∀ c ∈ client.settings.vocabulary.events.toList, Selector.isNameChar c = true)
    (cover : SameCover scene.page.document roots roots') : ScanLaw client scene roots roots' where
  asRead scene roots := by
    rw [scan_eq_scanInOrder]
    exact .inOrder reorders_events
  alike {result result'} h h' := by
    have hmarks : ∀ mark, mark ∈ result.1.page.marks ↔ mark ∈ result'.1.page.marks := fun mark => by
      rw [h.mem_marks_iff hf hnames, h'.mem_marks_iff hf hnames, cover mark.1]
    have hlength := length_listeners_eq_of_marks h.binds h'.binds hmarks
    rw [h.length_listeners, h'.length_listeners] at hlength
    refine ⟨Nat.add_left_cancel hlength, hmarks, fun node eventType => ?_⟩
    exact listenersOf_eq_of_marks h.binds h'.binds .rfl rfl (hmarks _) fun _ _ => .rfl
  counted h := h.length_listeners
  again {result next inner} h allowed covered h' := by
    have hdocument := document_of_binds h.binds
    have hpage : next.1.page = result.1.page := by
      refine eq_of_binds_of_marks h'.binds fun mark hmark => ?_
      rcases (h'.mem_marks_iff (by rwa [hdocument]) hnames mark).1 hmark with
        hold | ⟨-, ⟨root', hroot', habove⟩, hann⟩
      · exact hold
      · obtain ⟨root, hroot, hcovers⟩ := covered root' hroot'
        rw [hdocument] at habove
        rw [MemoryPage.announces_of_binds h.binds] at hann
        exact (h.mem_marks_iff hf hnames mark).2 (.inr ⟨allowed, ⟨root, hroot, hcovers.trans habove⟩, hann⟩)
    have hlength := h'.length_listeners
    rw [hpage] at hlength
    exact ⟨Nat.left_eq_add.1 hlength, hpage⟩

/-- A quotation that declares bindings, in a paragraph whose own declaration cannot be read. -/
def overlapping : Scene MemoryPage :=
  { page := .withBody (
      "<p silta-events='['><q silta-events='\x7b\"click\":[[\"remove\",\x7b\"target\":\"q\"\x7d]]," ++
      "\"input\":[[\"reset\",\x7b\"target\":\"p\"\x7d]]\x7d'></q></p>") }

/-- The first client of the page. -/
def scanner : Client MemoryPage :=
  (World.addClient { overlapping with } {} .empty).2

theorem scan_depends_on_cover_overlapping :
    (scanner.scan overlapping [3, 2, 3]).2 = 2 ∧
      (scanner.scan overlapping [2]).2 = 2 ∧
      (scanner.scanInOrder (fun _ bindings => bindings.events.reverse) overlapping [2]).1.page.listenersOf 3 "input" =
        (scanner.scan overlapping [2]).1.page.listenersOf 3 "input" ∧
      (scanner.scan (scanner.scan overlapping [3, 2, 3]).1 [3]).2 = 0 := by
  have hforest : overlapping.page.document.Forest := MemoryPage.forest_withBody _
  have hchars : scanner.settings.vocabulary.events.toList.all Selector.isNameChar = true := by decide +kernel
  have hnames := List.all_eq_true.1 hchars
  have hinner : ∀ root ∈ [3, 2, 3], overlapping.page.document.Above 2 root := by
    have hcontains : ∀ root ∈ [3, 2, 3], overlapping.page.document.contains 2 root = true := by decide +kernel
    exact fun root hroot => hforest.contains_iff.1 (hcontains root hroot)
  have hcover : SameCover overlapping.page.document [3, 2, 3] [2] := by
    intro node
    constructor
    · rintro ⟨root, hroot, habove⟩
      exact ⟨2, List.mem_singleton_self 2, (hinner root hroot).trans habove⟩
    · rintro ⟨root, hroot, habove⟩
      exact ⟨2, by decide, List.mem_singleton.1 hroot ▸ habove⟩
  have hlaw := scan_depends_on_cover hforest hnames hcover
  obtain ⟨hnumber, -, -⟩ := hlaw.alike (hlaw.asRead _ _) (hlaw.asRead _ _)
  have htwo : (scanner.scan overlapping [2]).2 = 2 := by decide +kernel
  have hreverse : scanner.Scans overlapping [2]
      (scanner.scanInOrder (fun _ bindings => bindings.events.reverse) overlapping [2]) :=
    .inOrder fun _ bindings => bindings.events.reverse_perm
  obtain ⟨-, -, hlisteners⟩ := (scan_depends_on_cover hforest hnames fun _ => .rfl).alike hreverse (hlaw.asRead _ _)
  refine ⟨hnumber.trans htwo, htwo, hlisteners 3 "input", ?_⟩
  have hlater : ∀ root ∈ [3], ∃ covering ∈ [3, 2, 3], overlapping.page.document.Above covering root :=
    fun root hroot => ⟨2, by decide, hinner root ((by decide : [3] ⊆ [3, 2, 3]) hroot)⟩
  exact (hlaw.again (hlaw.asRead _ _) (by decide +kernel) hlater (hlaw.asRead _ _)).1

end PageBindings.Client
