import Mathlib.Data.List.Induction
import PageBindings.Page.Browser
import PageBindings.Page.Memory

/-!
# Marks by claim and release

A pair of an element and an event type is claimed after some calls if it was claimed with success and was not released
since (`isClaimed`, which reads the calls and their answers and no page).  A page keeps marks if a claim succeeds
exactly for a pair without a mark, and changes this mark only (`KeepsMarks`); some event types may be reserved, and
then no claim of them succeeds.  What such a page answers follows from the calls alone (`KeepsMarks.run`).

A page in memory reserves nothing.  A page in a browser has its marks as properties of plain objects, and a look at a
property finds the inherited ones, too: it reserves the names that plain objects inherit, and beyond these it is a
page in memory (`claim_succeeds_iff`).
-/

namespace PageBindings

/-- A call to a page that concerns marks. -/
inductive MarkCall where
  | claim (node : NodeId) (eventType : String)
  | release (node : NodeId) (eventType : String)
deriving DecidableEq, Repr

/-- Calls with their answers, the latest first. -/
abbrev MarkHistory := List (MarkCall × Option Bool)

/-- Whether a pair is claimed after calls: it was claimed with success, and not released since. -/
def isClaimed : MarkHistory → NodeId × String → Bool
  | [], _ => false
  | (.claim node eventType, answer) :: earlier, pair =>
    isClaimed earlier pair || answer == some true && (node, eventType) == pair
  | (.release node eventType, _) :: earlier, pair => isClaimed earlier pair && (node, eventType) != pair

namespace MarkCall

/-- The element and the event type that a call is about. -/
def pair : MarkCall → NodeId × String
  | .claim node eventType => (node, eventType)
  | .release node eventType => (node, eventType)

variable {π : Type} [Page π]

/-- What a page answers to a call, which is nothing for a release, and the page after it. -/
def perform (page : π) : MarkCall → Option Bool × π
  | .claim node eventType =>
    let (success, page, _) := Page.claim page node eventType
    (some success, page)
  | .release node eventType => (none, (Page.release page node eventType).1)

/-- One more call. -/
def step (state : MarkHistory × π) (call : MarkCall) : MarkHistory × π :=
  let (answer, page) := call.perform state.2
  ((call, answer) :: state.1, page)

/-- Calls one after the other, with the page that they leave. -/
def run (page : π) (calls : List MarkCall) : MarkHistory × π :=
  calls.foldl step ([], page)

end MarkCall

/-! ### Pages that keep marks -/

/-- Pages of some kind have marks, which claims and releases set and take off, one at a time. -/
structure KeepsMarks {π : Type} [Page π] (Sound : π → Prop) (marked : π → NodeId × String → Bool)
    (reserved : String → Bool) : Prop where
  succeeds {page : π} (h : Sound page) (node : NodeId) (eventType : String) :
    (Page.claim page node eventType).1 = !(marked page (node, eventType) || reserved eventType)
  claim {page : π} (h : Sound page) (node : NodeId) (eventType : String) (pair : NodeId × String) :
    marked (Page.claim page node eventType).2.1 pair =
      (marked page pair || (Page.claim page node eventType).1 && (node, eventType) == pair)
  release {page : π} (h : Sound page) (node : NodeId) (eventType : String) (pair : NodeId × String) :
    marked (Page.release page node eventType).1 pair = (marked page pair && (node, eventType) != pair)
  sound_claim {page : π} (h : Sound page) (node : NodeId) (eventType : String) :
    Sound (Page.claim page node eventType).2.1
  sound_release {page : π} (h : Sound page) (node : NodeId) (eventType : String) :
    Sound (Page.release page node eventType).1

/-- The marks of a page are those of the calls so far. -/
structure Tracked {π : Type} (Sound : π → Prop) (marked : π → NodeId × String → Bool) (state : MarkHistory × π) :
    Prop where
  sound : Sound state.2
  marked_eq (pair : NodeId × String) : marked state.2 pair = isClaimed state.1 pair

namespace KeepsMarks

variable {π : Type} [Page π] {Sound : π → Prop} {marked : π → NodeId × String → Bool} {reserved : String → Bool}
  {page : π} {state : MarkHistory × π}

theorem sound_perform (h : KeepsMarks Sound marked reserved) (hpage : Sound page) (call : MarkCall) :
    Sound (call.perform page).2 := by
  cases call with
  | claim node eventType => exact h.sound_claim hpage node eventType
  | release node eventType => exact h.sound_release hpage node eventType

/-- A call leaves the marks of other pairs alone. -/
theorem marked_perform_of_ne (h : KeepsMarks Sound marked reserved) (hpage : Sound page) {call : MarkCall}
    {pair : NodeId × String} (hne : call.pair ≠ pair) : marked (call.perform page).2 pair = marked page pair := by
  cases call with
  | claim node eventType =>
    have hne : (node, eventType) ≠ pair := hne
    have hclaim := h.claim hpage node eventType pair
    rw [beq_false_of_ne hne, Bool.and_false, Bool.or_false] at hclaim
    exact hclaim
  | release node eventType =>
    have hne : (node, eventType) ≠ pair := hne
    have hrelease := h.release hpage node eventType pair
    rw [bne_iff_ne.2 hne, Bool.and_true] at hrelease
    exact hrelease

theorem step (h : KeepsMarks Sound marked reserved) (hstate : Tracked Sound marked state) (call : MarkCall) :
    Tracked Sound marked (call.step state) := by
  refine ⟨h.sound_perform hstate.sound call, fun pair => ?_⟩
  cases call with
  | claim node eventType =>
    have hclaim := h.claim hstate.sound node eventType pair
    have hanswer : (some (Page.claim state.2 node eventType).1 == some true) =
        (Page.claim state.2 node eventType).1 := by
      cases (Page.claim state.2 node eventType).1 <;> rfl
    show marked (Page.claim state.2 node eventType).2.1 pair =
      (isClaimed state.1 pair || some (Page.claim state.2 node eventType).1 == some true && (node, eventType) == pair)
    rw [hclaim, hanswer, hstate.marked_eq]
  | release node eventType =>
    have hrelease := h.release hstate.sound node eventType pair
    rw [hstate.marked_eq] at hrelease
    exact hrelease

private theorem foldl (h : KeepsMarks Sound marked reserved) (hstate : Tracked Sound marked state)
    (calls : List MarkCall) : Tracked Sound marked (calls.foldl MarkCall.step state) := by
  induction calls generalizing state with
  | nil => exact hstate
  | cons call rest ih => exact ih (h.step hstate call)

/-- On a page without marks, the marks are always those of the calls so far. -/
theorem run (h : KeepsMarks Sound marked reserved) (hpage : Sound page) (hnone : ∀ pair, marked page pair = false)
    (calls : List MarkCall) : Tracked Sound marked (MarkCall.run page calls) :=
  h.foldl ⟨hpage, hnone⟩ calls

/-- What a claim answers follows from the calls so far. -/
theorem succeeds_of_tracked (h : KeepsMarks Sound marked reserved) (hstate : Tracked Sound marked state)
    (node : NodeId) (eventType : String) :
    (Page.claim state.2 node eventType).1 = !(isClaimed state.1 (node, eventType) || reserved eventType) := by
  rw [h.succeeds hstate.sound, hstate.marked_eq]

/-- Two pages with marks give the same answers as long as neither is asked for what one of them reserves. -/
theorem history_eq {ρ : Type} [Page ρ] {Sound' : ρ → Prop} {marked' : ρ → NodeId × String → Bool}
    {reserved' : String → Bool} {page' : ρ} (h : KeepsMarks Sound marked reserved)
    (h' : KeepsMarks Sound' marked' reserved') (hpage : Sound page) (hpage' : Sound' page')
    (hnone : ∀ pair, marked page pair = false) (hnone' : ∀ pair, marked' page' pair = false) {calls : List MarkCall}
    (hfree : ∀ call ∈ calls, reserved call.pair.2 = reserved' call.pair.2) :
    (MarkCall.run page calls).1 = (MarkCall.run page' calls).1 := by
  induction calls using List.reverseRecOn with
  | nil => rfl
  | append_singleton calls call ih =>
    have hsame := ih fun other hother => hfree other (List.mem_append_left _ hother)
    have hcall := hfree call (List.mem_append_right _ (List.mem_singleton_self call))
    have htracked := h.run hpage hnone calls
    have htracked' := h'.run hpage' hnone' calls
    have hanswer : (call.perform (MarkCall.run page calls).2).1 = (call.perform (MarkCall.run page' calls).2).1 := by
      cases call with
      | claim node eventType =>
        have hcall : reserved eventType = reserved' eventType := hcall
        show some (Page.claim _ node eventType).1 = some (Page.claim _ node eventType).1
        rw [h.succeeds_of_tracked htracked, h'.succeeds_of_tracked htracked', hsame, hcall]
      | release node eventType => rfl
    have hstep : ∀ {τ : Type} [Page τ] (start : τ), (MarkCall.run start (calls ++ [call])).1 =
        (call, (call.perform (MarkCall.run start calls).2).1) :: (MarkCall.run start calls).1 := by
      intro τ _ start
      unfold MarkCall.run
      rw [List.foldl_append]
      rfl
    rw [hstep, hstep, hanswer, hsame]

end KeepsMarks

/-! ### Pages in memory -/

private theorem contains_filter_bne {α : Type} [BEq α] [LawfulBEq α] (l : List α) (a b : α) :
    (l.filter (· != a)).contains b = (l.contains b && a != b) := by
  rw [Bool.eq_iff_iff, List.contains_iff_mem, List.mem_filter, ← List.contains_iff_mem, bne_comm, Bool.and_eq_true]

/-- A page in memory keeps marks and reserves nothing. -/
theorem MemoryPage.keepsMarks :
    KeepsMarks (fun _ : MemoryPage => True) (fun page pair => page.marks.contains pair) fun _ => false where
  succeeds {page} _ node eventType := by
    show (page.claim node eventType).1 = _
    unfold MemoryPage.claim
    rw [Bool.or_false]
    cases page.marks.contains (node, eventType) <;> rfl
  claim {page} _ node eventType pair := by
    show (page.claim node eventType).2.marks.contains pair = (_ || (page.claim node eventType).1 && _)
    unfold MemoryPage.claim
    cases hmark : page.marks.contains (node, eventType) with
    | true => simp
    | false =>
      show ((node, eventType) :: page.marks).contains pair = _
      rw [List.contains_cons, Bool.beq_comm, Bool.or_comm]
      rfl
  release {page} _ node eventType pair := by
    show (page.release node eventType).marks.contains pair = _
    exact contains_filter_bne page.marks (node, eventType) pair
  sound_claim _ _ _ := trivial
  sound_release _ _ _ := trivial

/-! ### Pages in a browser -/

namespace BrowserPage

/-- The functions on properties of objects do not throw. -/
structure Unrefused (page : BrowserPage) : Prop where
  getProperty : page.has .getProperty = false
  setProperty : page.has .setProperty = false
  hasProperty : page.has .hasProperty = false
  deleteProperty : page.has .deleteProperty = false

/-- Whether an event type was set on the object with the marks of an element. -/
def bears (page : BrowserPage) (pair : NodeId × String) : Bool :=
  ((page.markNames? pair.1).getD []).contains pair.2

variable {page : BrowserPage}

theorem Unrefused.setMarkProperty (h : page.Unrefused) (node : NodeId) (property : MarkProperty) :
    (page.setMarkProperty node property).Unrefused :=
  ⟨h.getProperty, h.setProperty, h.hasProperty, h.deleteProperty⟩

theorem markProperty?_setMarkProperty (page : BrowserPage) (node m : NodeId) (property : MarkProperty) :
    (page.setMarkProperty node property).markProperty? m =
      if node = m then some property else page.markProperty? m := by
  unfold markProperty? BrowserPage.setMarkProperty
  by_cases h : node = m
  · simp [h]
  · -- the entry that is dropped is not one of the other element
    have hothers : (fun entry : NodeId × MarkProperty => decide ((entry.1 != node) = true ∧ (entry.1 == m) = true)) =
        fun entry => entry.1 == m := by
      funext entry
      by_cases he : entry.1 = m
      · simp [he, Ne.symm h]
      · simp [he]
    rw [if_neg h, List.find?_cons, beq_false_of_ne h, List.find?_filter, hothers]

theorem Unrefused.markNames?_eq (h : page.Unrefused) (node : NodeId) : page.markNames? node =
    match page.markProperty? node with
    | some (.object names) => some names
    | _ => none := by
  unfold markNames?
  rw [h.getProperty]
  rfl

/-- With the object of an element set, the names on it are its marks, and the other elements keep theirs. -/
theorem Unrefused.bears_setMarkProperty (h : page.Unrefused) (node : NodeId) (names : List String)
    (pair : NodeId × String) : (page.setMarkProperty node (.object names)).bears pair =
      if node = pair.1 then names.contains pair.2 else page.bears pair := by
  unfold bears
  rw [(h.setMarkProperty node _).markNames?_eq, h.markNames?_eq, markProperty?_setMarkProperty]
  by_cases hnode : node = pair.1
  · simp [hnode]
  · simp [hnode]

/-- Before it sets a mark, a claim makes the object that it sets it on, if there is none. -/
private theorem claim_eq (h : page.Unrefused) (node : NodeId) (eventType : String) :
    ∃ made : BrowserPage, made.Unrefused ∧ (∀ pair, made.bears pair = page.bears pair) ∧
      page.claim node eventType =
        if page.bears (node, eventType) || inheritedNames.contains eventType then (false, made, [])
        else (true, made.setMarkProperty node (.object (((page.markNames? node).getD []).insert eventType)), []) := by
  refine ⟨if (page.markNames? node).isNone then page.setMarkProperty node (.object []) else page, ?_, ?_, ?_⟩
  · split
    · exact h.setMarkProperty node _
    · exact h
  · intro pair
    split
    · rename_i hnone
      rw [h.bears_setMarkProperty]
      split
      · rename_i hnode
        unfold bears
        rw [← hnode, Option.isNone_iff_eq_none.1 hnone]
        rfl
      · rfl
    · rfl
  · have hhas : ∀ p, (page.setMarkProperty node p).has .hasProperty = page.has .hasProperty := fun _ => rfl
    unfold BrowserPage.claim bears
    cases page.markNames? node with
    | none => simp [h.setProperty, hhas, h.hasProperty]
    | some names => simp [h.setProperty, h.hasProperty]

private theorem pair_beq (node : NodeId) (eventType other : String) :
    ((node, eventType) == (node, other)) = (eventType == other) := by
  rw [Bool.eq_iff_iff]
  simp

/-- A page in a browser keeps marks, and reserves the names that plain objects inherit. -/
theorem keepsMarks : KeepsMarks Unrefused bears fun eventType => inheritedNames.contains eventType where
  succeeds {page} h node eventType := by
    obtain ⟨made, -, -, hclaim⟩ := claim_eq h node eventType
    show (page.claim node eventType).1 = _
    rw [hclaim]
    cases page.bears (node, eventType) || inheritedNames.contains eventType <;> rfl
  claim {page} h node eventType pair := by
    obtain ⟨made, hmade, hbears, hclaim⟩ := claim_eq h node eventType
    show (page.claim node eventType).2.1.bears pair = (_ || (page.claim node eventType).1 && _)
    rw [hclaim]
    cases page.bears (node, eventType) || inheritedNames.contains eventType with
    | true => simp [hbears]
    | false =>
      show (made.setMarkProperty node _).bears pair = _
      obtain ⟨m, other⟩ := pair
      rw [hmade.bears_setMarkProperty, hbears]
      by_cases hnode : node = m
      · subst hnode
        have hinsert : (((page.markNames? node).getD []).insert eventType).contains other =
            (((page.markNames? node).getD []).contains other || eventType == other) := by
          rw [Bool.eq_iff_iff, List.contains_iff_mem, List.mem_insert_iff, Bool.or_eq_true, List.contains_iff_mem,
            beq_iff_eq, or_comm]
          exact or_congr_right eq_comm
        show _ = (((page.markNames? node).getD []).contains other || (true && (node, eventType) == (node, other)))
        rw [if_pos rfl, hinsert, Bool.true_and, pair_beq]
      · simp [hnode]
  release {page} h node eventType pair := by
    show (page.release node eventType).1.bears pair = _
    obtain ⟨m, other⟩ := pair
    unfold BrowserPage.release
    cases hnames : page.markNames? node with
    | none =>
      by_cases hnode : node = m
      · subst hnode
        simp [bears, hnames]
      · simp [hnode]
    | some names =>
      simp only [h.deleteProperty]
      show (page.setMarkProperty node _).bears (m, other) = _
      rw [h.bears_setMarkProperty]
      by_cases hnode : node = m
      · subst hnode
        rw [if_pos rfl, contains_filter_bne, bne, bne, pair_beq]
        unfold bears
        rw [hnames]
        rfl
      · simp [hnode]
  sound_claim {page} h node eventType := by
    obtain ⟨made, hmade, -, hclaim⟩ := claim_eq h node eventType
    show (page.claim node eventType).2.1.Unrefused
    rw [hclaim]
    split
    · exact hmade
    · exact hmade.setMarkProperty node _
  sound_release {page} h node eventType := by
    show (page.release node eventType).1.Unrefused
    unfold BrowserPage.release
    split
    · exact h
    · split
      · exact h
      · exact h.setMarkProperty node _

theorem bears_of_markProperties (h : page.markProperties = []) (pair : NodeId × String) :
    page.bears pair = false := by
  unfold bears markNames? markProperty?
  rw [h]
  cases page.has .getProperty <;> rfl

/--
On a page in a browser where nothing is marked at first and no function on properties throws, a claim succeeds exactly
for a pair that is not claimed at that moment, unless plain objects inherit the name; those never succeed.  No call
has an effect on the claims of another pair.  So long as no inherited name occurs, a page in memory gives the same
answers.
-/
theorem claim_succeeds_iff (hnone : page.markProperties = []) (hunrefused : page.Unrefused) (calls : List MarkCall)
    (node : NodeId) (eventType : String) :
    ((Page.claim (MarkCall.run page calls).2 node eventType).1 = true ↔
      isClaimed (MarkCall.run page calls).1 (node, eventType) = false ∧ eventType ∉ inheritedNames) ∧
    (∀ call : MarkCall, call.pair ≠ (node, eventType) →
      (Page.claim (call.perform (MarkCall.run page calls).2).2 node eventType).1 =
        (Page.claim (MarkCall.run page calls).2 node eventType).1) ∧
    (∀ memory : MemoryPage, memory.marks = [] → (∀ call ∈ calls, call.pair.2 ∉ inheritedNames) →
      (MarkCall.run memory calls).1 = (MarkCall.run page calls).1) := by
  have hfree := bears_of_markProperties hnone
  have htracked := keepsMarks.run hunrefused hfree calls
  refine ⟨?_, fun call hne => ?_, fun memory hmemory hcalls => ?_⟩
  · rw [keepsMarks.succeeds_of_tracked htracked]
    simp
  · have hafter := keepsMarks.sound_perform htracked.sound call
    rw [keepsMarks.succeeds hafter, keepsMarks.succeeds htracked.sound,
      keepsMarks.marked_perform_of_ne htracked.sound hne]
  · refine MemoryPage.keepsMarks.history_eq keepsMarks trivial hunrefused ?_ hfree fun call hcall => ?_
    · simp [hmemory]
    · simpa using (hcalls call hcall)

/-- A paragraph that is marked for two event types, of which one is released again. -/
def releasing : List MarkCall :=
  [.claim 2 "x", .claim 2 "y", .claim 2 "x", .release 2 "x", .release 1 "y"]

theorem claim_succeeds_iff_releasing :
    (withBody "<p></p>").markProperties = [] ∧ (withBody "<p></p>").Unrefused ∧
      (MarkCall.run (withBody "<p></p>") releasing).1.map Prod.snd =
        [none, none, some false, some true, some true] ∧
      (Page.claim (MarkCall.run (withBody "<p></p>") releasing).2 2 "x").1 = true ∧
      (Page.claim (MarkCall.run (withBody "<p></p>") releasing).2 2 "y").1 = false ∧
      (MarkCall.run (MemoryPage.withBody "<p></p>") releasing).1 =
        (MarkCall.run (withBody "<p></p>") releasing).1 := by
  have hnone : (withBody "<p></p>").markProperties = [] := rfl
  have hunrefused : (withBody "<p></p>").Unrefused := ⟨rfl, rfl, rfl, rfl⟩
  have hclaimed : isClaimed (MarkCall.run (withBody "<p></p>") releasing).1 (2, "x") = false ∧
      isClaimed (MarkCall.run (withBody "<p></p>") releasing).1 (2, "y") = true := by decide +kernel
  obtain ⟨hx, -, hmemory⟩ := claim_succeeds_iff hnone hunrefused releasing 2 "x"
  have hy := (claim_succeeds_iff hnone hunrefused releasing 2 "y").1
  refine ⟨hnone, hunrefused, by decide +kernel, hx.2 ⟨hclaimed.1, by decide⟩, ?_, hmemory _ rfl (by decide)⟩
  rw [Bool.eq_false_iff]
  intro hsuccess
  have hnot := (hy.1 hsuccess).1
  simp [hclaimed.2] at hnot

/-- Nobody has claimed anything, and yet a claim of an inherited name does not succeed. -/
theorem inherited_name_is_reserved :
    (withBody "<p></p>").markProperties = [] ∧ (withBody "<p></p>").Unrefused ∧
      isClaimed (MarkCall.run (withBody "<p></p>") []).1 (2, "constructor") = false ∧
      (Page.claim (MarkCall.run (withBody "<p></p>") []).2 2 "constructor").1 = false :=
  ⟨rfl, ⟨rfl, rfl, rfl, rfl⟩, rfl, by decide +kernel⟩

end BrowserPage

end PageBindings
