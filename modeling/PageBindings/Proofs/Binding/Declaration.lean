import PageBindings.Binding.Declaration

/-!
# What a declaration says

The event types of bindings are the names of the members that declare them, in increasing order and each once
(`Bindings.pairwise_of_parse`), so that an event type has the actions of its only entry (`Bindings.actions?_of_mem`).
The selector of the view decides only where actions without a target aim; whether a text can be read, and what else it
says, does not depend on it (`Bindings.parse_eq_map_aim`).
-/

namespace PageBindings

/-- The action with a target, if it names none itself. -/
def Action.aim (selfTarget : Option String) (action : Action) : Action :=
  { action with target := action.target.or selfTarget }

/-- The bindings with a target for the actions that name none. -/
def Bindings.aim (selfTarget : Option String) (bindings : Bindings) : Bindings :=
  ⟨bindings.events.map fun event => (event.1, event.2.map (Action.aim selfTarget))⟩

namespace Json

/-- The members of an object that was read have increasing names. -/
theorem pairwise_of_parse? {text : String} {members : List (String × Json)}
    (h : parse? text = some (.object members)) :
    (members.map (·.1)).Pairwise (· < ·) := by
  unfold parse? parseWithin? at h
  obtain ⟨⟨raw, rest⟩, -, h⟩ := Option.bind_eq_some_iff.1 h
  dsimp only at h
  split at h
  · cases raw with
    | null => simp [ofRaw?] at h
    | bool b => simp [ofRaw?] at h
    | number n => simp [ofRaw?] at h
    | string pieces => simp [ofRaw?] at h
    | array items => simp [ofRaw?, nestingLimit] at h
    | object given =>
      simp only [nestingLimit, ofRaw?, Option.map_eq_some_iff, Json.object.injEq] at h
      obtain ⟨read, -, rfl⟩ := h
      exact pairwise_sortMembers read
  · simp at h

end Json

namespace Bindings

variable {eventType text : String} {selfTarget : Option String} {bindings : Bindings} {actions : List Action}

theorem readEvent_eq_ok {member : String × Json} {event : String × List Action}
    (h : readEvent selfTarget member = .ok event) : event.1 = member.1 := by
  unfold readEvent at h
  split at h
  · rename_i name entries
    cases hr : readEntries name selfTarget 0 entries with
    | error cause => simp [hr, bind, Except.bind] at h
    | ok read =>
      simp only [hr, bind, Except.bind, pure, Except.pure, Except.ok.injEq] at h
      rw [← h]
  · simp at h

private theorem keys_of_mapM {members : List (String × Json)} {events : List (String × List Action)}
    (h : members.mapM (readEvent selfTarget) = .ok events) : events.map (·.1) = members.map (·.1) := by
  induction members generalizing events with
  | nil =>
    simp only [List.mapM_nil, pure, Except.pure, Except.ok.injEq] at h
    rw [← h]
    rfl
  | cons member rest ih =>
    rw [List.mapM_cons] at h
    cases hm : readEvent selfTarget member with
    | error cause => simp [hm, bind, Except.bind] at h
    | ok event =>
      cases hr : rest.mapM (readEvent selfTarget) with
      | error cause => simp [hm, hr, bind, Except.bind] at h
      | ok more =>
        simp only [hm, hr, bind, Except.bind, pure, Except.pure, Except.ok.injEq] at h
        rw [← h, List.map_cons, List.map_cons, ih hr, readEvent_eq_ok hm]

theorem pairwise_of_parse (h : parse text selfTarget = .ok bindings) :
    (bindings.events.map (·.1)).Pairwise (· < ·) := by
  unfold parse at h
  split at h
  · simp at h
  · rename_i value hvalue
    unfold ofJson at h
    split at h
    · rename_i members
      cases hm : members.mapM (readEvent selfTarget) with
      | error cause => simp [hm, bind, Except.bind] at h
      | ok events =>
        simp only [hm, bind, Except.bind, pure, Except.pure, Except.ok.injEq] at h
        rw [← h, keys_of_mapM hm]
        exact Json.pairwise_of_parse? hvalue
    · simp at h

/-- The actions of an event type are those of its entry. -/
theorem actions?_of_mem (h : parse text selfTarget = .ok bindings) (hmem : (eventType, actions) ∈ bindings.events) :
    bindings.actions? eventType = some actions := by
  have hkeys := pairwise_of_parse h
  unfold actions?
  generalize bindings.events = events at hkeys hmem
  induction events with
  | nil => simp at hmem
  | cons event rest ih =>
    rw [List.map_cons, List.pairwise_cons] at hkeys
    rcases List.mem_cons.1 hmem with rfl | hmem
    · simp
    · have hlt := hkeys.1 eventType (List.mem_map_of_mem (f := (·.1)) hmem)
      have hne : event.1 ≠ eventType := fun he => String.lt_irrefl _ (he ▸ hlt)
      rw [List.find?_cons_of_neg (by simpa using hne)]
      exact ih hkeys.2 hmem

/-! ### The selector of the view -/

private theorem readEntry_eq_map_aim (eventType : String) (selfTarget : Option String) (index : Nat) (entry : Json) :
    readEntry eventType selfTarget index entry =
      (readEntry eventType none index entry).map (Action.aim selfTarget) := by
  unfold readEntry
  split
  · rename_i kind parts
    split
    · rfl
    · split
      · split
        · rfl
        · cases splitParts eventType index parts with
          | error cause => rfl
          | ok split =>
            obtain ⟨settings, declared⟩ := split
            simp only [bind, Except.bind]
            cases readTarget eventType index settings with
            | error cause => rfl
            | ok target =>
              simp only
              cases readEndpoint eventType index declared with
              | error cause => rfl
              | ok endpoint => simp [pure, Except.pure, Except.map, Action.aim]
      · rfl
  · rfl

private theorem readEntries_eq_map_aim (eventType : String) (selfTarget : Option String) (index : Nat)
    (entries : List Json) : readEntries eventType selfTarget index entries =
      (readEntries eventType none index entries).map (List.map (Action.aim selfTarget)) := by
  induction entries generalizing index with
  | nil => rfl
  | cons entry rest ih =>
    unfold readEntries
    rw [readEntry_eq_map_aim, ih]
    cases readEntry eventType none index entry with
    | error cause => rfl
    | ok action =>
      cases readEntries eventType none (index + 1) rest with
      | error cause => rfl
      | ok actions => rfl

private theorem readEvent_eq_map_aim (selfTarget : Option String) (member : String × Json) :
    readEvent selfTarget member =
      (readEvent none member).map fun event => (event.1, event.2.map (Action.aim selfTarget)) := by
  unfold readEvent
  split
  · rw [readEntries_eq_map_aim]
    rename_i name entries
    cases readEntries name none 0 entries with
    | error cause => rfl
    | ok actions => rfl
  · rfl

private theorem readEvents_eq_map_aim (selfTarget : Option String) (members : List (String × Json)) :
    members.mapM (readEvent selfTarget) = (members.mapM (readEvent none)).map
      (List.map fun event => (event.1, event.2.map (Action.aim selfTarget))) := by
  induction members with
  | nil => rfl
  | cons member rest ih =>
    rw [List.mapM_cons, List.mapM_cons, readEvent_eq_map_aim, ih]
    cases readEvent none member with
    | error cause => rfl
    | ok event =>
      cases rest.mapM (readEvent none) with
      | error cause => rfl
      | ok events => rfl

/-- The selector of the view makes a difference only to where actions aim. -/
theorem parse_eq_map_aim (text : String) (selfTarget : Option String) :
    parse text selfTarget = (parse text none).map (aim selfTarget) := by
  unfold parse
  split
  · rfl
  · unfold ofJson
    split
    · rename_i members _
      rw [readEvents_eq_map_aim]
      cases members.mapM (readEvent none) with
      | error cause => rfl
      | ok events => rfl
    · rfl

/-- A declaration that can be read for one view can be read for any other, and gives the same event types. -/
theorem exists_parse (h : parse text selfTarget = .ok bindings) (other : Option String) :
    ∃ bindings', parse text other = .ok bindings' ∧ bindings'.events.map (·.1) = bindings.events.map (·.1) := by
  rw [parse_eq_map_aim] at h ⊢
  cases hp : parse text none with
  | error cause => simp [hp, Except.map] at h
  | ok plain =>
    simp only [hp, Except.map, Except.ok.injEq] at h
    refine ⟨aim other plain, rfl, ?_⟩
    rw [← h]
    simp [aim]

/-- A declaration that cannot be read for one view cannot be read for any other, for the same reason. -/
theorem parse_eq_error {cause : BindingError} (h : parse text selfTarget = .error cause) (other : Option String) :
    parse text other = .error cause := by
  rw [parse_eq_map_aim] at h ⊢
  cases hp : parse text none with
  | error plain =>
    rw [hp] at h
    exact h
  | ok plain => simp [hp, Except.map] at h

/-- An event type with actions is one that is declared. -/
theorem mem_of_actions? (h : bindings.actions? eventType = some actions) : eventType ∈ bindings.events.map (·.1) := by
  obtain ⟨event, hfind, -⟩ := Option.map_eq_some_iff.1 h
  have htype := List.find?_some hfind
  rw [beq_iff_eq] at htype
  exact htype ▸ List.mem_map_of_mem (List.mem_of_find?_eq_some hfind)

end Bindings

end PageBindings
