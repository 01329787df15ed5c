import Mathlib.Data.List.Forall2
import PageBindings.Proofs.Binding.Declaration

/-!
# The grammar of declarations

An entry is in one of four forms, each of which declares an action (`Bindings.EntryForm`), or has one fault
(`Bindings.EntryFault`); the forms and faults exclude each other.  A text can be read exactly if it is an object of
lists of entries in these forms, and then declares their actions in order; otherwise the answer is the fault of the
first entry that has one, by event type (`reads_grammar`).
-/

namespace PageBindings

theorem PatchKind.ofName?_eq_some_iff {name : String} {kind : PatchKind} :
    ofName? name = some kind ↔ kind.name = name := by
  constructor
  · intro h
    unfold ofName? at h
    split at h
    · rename_i hname
      exact Option.some.inj h ▸ hname.symm
    split at h
    · rename_i hname
      exact Option.some.inj h ▸ hname.symm
    split at h
    · rename_i hname
      exact Option.some.inj h ▸ hname.symm
    split at h
    · rename_i hname
      exact Option.some.inj h ▸ hname.symm
    split at h
    · rename_i hname
      exact Option.some.inj h ▸ hname.symm
    · simp at h
  · rintro rfl
    exact ofName?_name kind

theorem PatchKind.ofName?_eq_none_iff {name : String} :
    ofName? name = none ↔ ∀ kind : PatchKind, kind.name ≠ name := by
  rw [Option.eq_none_iff_forall_ne_some]
  exact forall_congr' fun kind => not_congr ofName?_eq_some_iff

namespace Bindings

/-! ### Forms and faults -/

/-- A list that starts with a string is an endpoint. -/
inductive EndpointForm : Json → Endpoint → Prop
  | intro (path : String) (parameters : List Json) :
      EndpointForm (.array (.string path :: parameters)) ⟨path, parameters⟩

/-- The target that settings name; null counts as none. -/
inductive TargetForm (settings : List (String × Json)) : Option String → Prop
  | absent (h : Json.member? "target" settings = none) : TargetForm settings none
  | null (h : Json.member? "target" settings = some .null) : TargetForm settings none
  | text {target : String} (h : Json.member? "target" settings = some (.string target)) :
      TargetForm settings (some target)

/-- The settings of an entry but for its target. -/
def hintsOf (settings : List (String × Json)) : List (String × Json) :=
  settings.filter (·.1 != "target")

/-- The entry has this form, and declares this action; its target is the one that it names, or else `selfTarget`. -/
inductive EntryForm (selfTarget : Option String) : Json → Action → Prop
  | bare (kind : PatchKind) :
      EntryForm selfTarget (.array [.string kind.name]) { kind, target := selfTarget, hints := [], endpoint := none }
  | endpoint (kind : PatchKind) {declared : Json} {endpoint : Endpoint} (remote : EndpointForm declared endpoint) :
      EntryForm selfTarget (.array [.string kind.name, declared])
        { kind, target := selfTarget, hints := [], endpoint := some endpoint }
  | settings (kind : PatchKind) {settings : List (String × Json)} {target : Option String}
      (aim : TargetForm settings target) :
      EntryForm selfTarget (.array [.string kind.name, .object settings])
        { kind, target := target.or selfTarget, hints := hintsOf settings, endpoint := none }
  | both (kind : PatchKind) {settings : List (String × Json)} {target : Option String}
      (aim : TargetForm settings target) {declared : Json} {endpoint : Endpoint}
      (remote : EndpointForm declared endpoint) :
      EntryForm selfTarget (.array [.string kind.name, .object settings, declared])
        { kind, target := target.or selfTarget, hints := hintsOf settings, endpoint := some endpoint }

/-- The fault of an entry that has none of the forms. -/
inductive EntryFault (eventType : String) (index : Nat) : Json → BindingError → Prop
  /-- It is no list of one to three parts that starts with a string. -/
  | malformed {entry : Json} (h : ∀ name parts, entry = .array (.string name :: parts) → 2 < parts.length) :
      EntryFault eventType index entry (.malformedEntry eventType index)
  | unknownKind {name : String} {parts : List Json} (short : parts.length ≤ 2)
      (h : ∀ kind : PatchKind, kind.name ≠ name) :
      EntryFault eventType index (.array (.string name :: parts)) (.unknownKind eventType name)
  /-- It goes on, but neither with a list and nothing else nor with an object. -/
  | unexpectedSecond (kind : PatchKind) {second : Json} {rest : List Json} (short : rest.length ≤ 1)
      (list : ∀ items, second = .array items → rest ≠ []) (object : ∀ settings, second ≠ .object settings) :
      EntryFault eventType index (.array (.string kind.name :: second :: rest)) (.unexpectedSecond eventType index)
  | invalidTarget (kind : PatchKind) {settings : List (String × Json)} {rest : List Json} (short : rest.length ≤ 1)
      {found : Json} (named : Json.member? "target" settings = some found) (null : found ≠ .null)
      (text : ∀ target, found ≠ .string target) :
      EntryFault eventType index (.array (.string kind.name :: .object settings :: rest))
        (.invalidTarget eventType index found)
  | invalidEndpoint (kind : PatchKind) {items : List Json} (h : ∀ endpoint, ¬ EndpointForm (.array items) endpoint) :
      EntryFault eventType index (.array [.string kind.name, .array items]) (.invalidEndpoint eventType index)
  | invalidThird (kind : PatchKind) {settings : List (String × Json)} {target : Option String}
      (aim : TargetForm settings target) {declared : Json} (h : ∀ endpoint, ¬ EndpointForm declared endpoint) :
      EntryFault eventType index (.array [.string kind.name, .object settings, declared])
        (.invalidEndpoint eventType index)

/-- The member is a list of entries, which declare these actions for its event type. -/
inductive EventForm (selfTarget : Option String) : String × Json → String × List Action → Prop
  | intro (eventType : String) {entries : List Json} {actions : List Action}
      (forms : List.Forall₂ (EntryForm selfTarget) entries actions) :
      EventForm selfTarget (eventType, .array entries) (eventType, actions)

/-- The fault of a member: it is no list, or else that of the first entry that has one. -/
inductive EventFault (selfTarget : Option String) : String × Json → BindingError → Prop
  | notAList {eventType : String} {value : Json} (h : ∀ entries, value ≠ .array entries) :
      EventFault selfTarget (eventType, value) (.notAList eventType)
  | entry {eventType : String} {before after : List Json} {entry : Json} {cause : BindingError}
      (forms : ∀ earlier ∈ before, ∃ action, EntryForm selfTarget earlier action)
      (fault : EntryFault eventType before.length entry cause) :
      EventFault selfTarget (eventType, .array (before ++ entry :: after)) cause

/-! ### Entries -/

variable {eventType : String} {selfTarget : Option String} {index : Nat} {entry declared : Json}
  {settings : List (String × Json)} {cause : BindingError}

theorem readEndpoint?_eq_some_iff {endpoint : Endpoint} :
    readEndpoint? declared = some endpoint ↔ EndpointForm declared endpoint := by
  constructor
  · intro h
    unfold readEndpoint? at h
    split at h
    · exact Option.some.inj h ▸ .intro _ _
    · simp at h
  · rintro ⟨path, parameters⟩
    rfl

theorem readEndpoint?_eq_none_iff :
    readEndpoint? declared = none ↔ ∀ endpoint, ¬ EndpointForm declared endpoint := by
  rw [Option.eq_none_iff_forall_ne_some]
  exact forall_congr' fun endpoint => not_congr readEndpoint?_eq_some_iff

theorem readTarget_eq_ok_iff {target : Option String} :
    readTarget eventType index settings = .ok target ↔ TargetForm settings target := by
  constructor
  · intro h
    unfold readTarget at h
    split at h
    · rename_i hnone
      exact Except.ok.inj h ▸ .absent hnone
    · rename_i hnull
      exact Except.ok.inj h ▸ .null hnull
    · rename_i hsome
      exact Except.ok.inj h ▸ .text hsome
    · simp at h
  · intro h
    unfold readTarget
    cases h with
    | absent h => rw [h]
    | null h => rw [h]
    | text h => rw [h]

theorem readTarget_eq_error_iff : readTarget eventType index settings = .error cause ↔
    ∃ found, Json.member? "target" settings = some found ∧ found ≠ .null ∧ (∀ target, found ≠ .string target) ∧
      cause = .invalidTarget eventType index found := by
  unfold readTarget
  cases Json.member? "target" settings with
  | none => simp
  | some found => cases found <;> simp [eq_comm]

private theorem readEndpoint_eq_ok {endpoint : Endpoint} (h : EndpointForm declared endpoint) :
    readEndpoint eventType index (some declared) = .ok (some endpoint) := by
  simp only [readEndpoint, readEndpoint?_eq_some_iff.2 h]

private theorem readEndpoint_eq_error (h : ∀ endpoint, ¬ EndpointForm declared endpoint) :
    readEndpoint eventType index (some declared) = .error (.invalidEndpoint eventType index) := by
  simp only [readEndpoint, readEndpoint?_eq_none_iff.2 h]

/-- An entry of a known kind is read part by part. -/
private theorem readEntry_of_kind (kind : PatchKind) {parts : List Json} (short : parts.length ≤ 2) :
    readEntry eventType selfTarget index (.array (.string kind.name :: parts)) = do
      let (settings, endpoint) ← splitParts eventType index parts
      let target ← readTarget eventType index settings
      let endpoint ← readEndpoint eventType index endpoint
      return { kind, target := target.or selfTarget, hints := hintsOf settings, endpoint } := by
  unfold readEntry
  dsimp only
  rw [if_neg (Nat.not_lt.2 short), PatchKind.ofName?_name]
  rfl

theorem readEntry_of_form {action : Action} (h : EntryForm selfTarget entry action) :
    readEntry eventType selfTarget index entry = .ok action := by
  cases h with
  | bare kind =>
    rw [readEntry_of_kind kind (by simp)]
    rfl
  | endpoint kind remote =>
    rw [readEntry_of_kind kind (by simp)]
    obtain ⟨path, parameters⟩ := remote
    rfl
  | settings kind aim =>
    rw [readEntry_of_kind kind (by simp)]
    simp only [splitParts, readTarget_eq_ok_iff.2 aim, bind, Except.bind]
    rfl
  | both kind aim remote =>
    rw [readEntry_of_kind kind (by simp)]
    simp only [splitParts, readTarget_eq_ok_iff.2 aim, readEndpoint_eq_ok remote, bind, Except.bind]
    rfl

theorem readEntry_of_fault (h : EntryFault eventType index entry cause) :
    readEntry eventType selfTarget index entry = .error cause := by
  cases h with
  | malformed h =>
    unfold readEntry
    split
    · rename_i kind parts
      split
      · rfl
      · rename_i hlong
        split
        · exact absurd (h _ _ rfl) hlong
        · rfl
    · rfl
  | unknownKind short h =>
    unfold readEntry
    dsimp only
    rw [if_neg (Nat.not_lt.2 short), PatchKind.ofName?_eq_none_iff.2 h]
  | @unexpectedSecond kind second rest short list object =>
    rw [readEntry_of_kind kind (by simpa using short)]
    cases second with
    | array items =>
      cases rest with
      | nil => exact absurd rfl (list items rfl)
      | cons third more => rfl
    | object settings => exact absurd rfl (object settings)
    | null | bool b | number n | string s => rfl
  | @invalidTarget kind settings rest short found named null text =>
    rw [readEntry_of_kind kind (by simpa using short)]
    have hsplit : ∃ endpoint, splitParts eventType index (.object settings :: rest) = .ok (settings, endpoint) := by
      match rest with
      | [] => exact ⟨none, rfl⟩
      | [third] => exact ⟨some third, rfl⟩
      | _ :: _ :: _ => simp at short
    obtain ⟨endpoint, hsplit⟩ := hsplit
    have htarget : readTarget eventType index settings = .error (.invalidTarget eventType index found) :=
      readTarget_eq_error_iff.2 ⟨found, named, null, text, rfl⟩
    simp only [hsplit, htarget, bind, Except.bind]
  | invalidEndpoint kind h =>
    rw [readEntry_of_kind kind (by simp)]
    have hno : readTarget eventType index [] = .ok none := rfl
    simp only [splitParts, hno, readEndpoint_eq_error h, bind, Except.bind]
  | invalidThird kind aim h =>
    rw [readEntry_of_kind kind (by simp)]
    simp only [splitParts, readTarget_eq_ok_iff.2 aim, readEndpoint_eq_error h, bind, Except.bind]

/-- Every entry has a form or a fault. -/
theorem form_or_fault (eventType : String) (selfTarget : Option String) (index : Nat) (entry : Json) :
    (∃ action, EntryForm selfTarget entry action) ∨ ∃ cause, EntryFault eventType index entry cause := by
  by_cases hshape : ∃ name parts, entry = .array (.string name :: parts) ∧ parts.length ≤ 2
  case neg =>
    exact .inr ⟨_, .malformed fun name parts he => Nat.lt_of_not_le fun hshort => hshape ⟨name, parts, he, hshort⟩⟩
  obtain ⟨name, parts, rfl, short⟩ := hshape
  cases hkind : PatchKind.ofName? name with
  | none => exact .inr ⟨_, .unknownKind short (PatchKind.ofName?_eq_none_iff.1 hkind)⟩
  | some kind =>
    obtain rfl := PatchKind.ofName?_eq_some_iff.1 hkind
    -- an endpoint, and the target among settings, are there or not
    have endpointCases : ∀ declared, (∃ endpoint, EndpointForm declared endpoint) ∨
        ∀ endpoint, ¬ EndpointForm declared endpoint := by
      intro declared
      exact (em _).imp_right not_exists.1
    have targetCases : ∀ settings rest, rest.length ≤ 1 → (∃ target, TargetForm settings target) ∨
        ∃ cause, EntryFault eventType index (.array (.string kind.name :: .object settings :: rest)) cause := by
      intro settings rest hrest
      cases ht : readTarget eventType index settings with
      | ok target => exact .inl ⟨target, readTarget_eq_ok_iff.1 ht⟩
      | error cause =>
        obtain ⟨found, named, null, text, -⟩ := readTarget_eq_error_iff.1 ht
        exact .inr ⟨_, .invalidTarget kind hrest named null text⟩
    match parts, short with
    | [], _ => exact .inl ⟨_, .bare kind⟩
    | [.array items], _ =>
      rcases endpointCases (.array items) with ⟨endpoint, remote⟩ | hnone
      · exact .inl ⟨_, .endpoint kind remote⟩
      · exact .inr ⟨_, .invalidEndpoint kind hnone⟩
    | [.object settings], _ =>
      rcases targetCases settings [] (Nat.zero_le 1) with ⟨target, aim⟩ | hfault
      · exact .inl ⟨_, .settings kind aim⟩
      · exact .inr hfault
    | [.object settings, declared], _ =>
      rcases targetCases settings [declared] (Nat.le_refl 1) with ⟨target, aim⟩ | hfault
      · rcases endpointCases declared with ⟨endpoint, remote⟩ | hnone
        · exact .inl ⟨_, .both kind aim remote⟩
        · exact .inr ⟨_, .invalidThird kind aim hnone⟩
      · exact .inr hfault
    | [.array items, third], _ =>
      exact .inr ⟨_, .unexpectedSecond kind (Nat.le_refl 1) (fun _ _ => List.cons_ne_nil _ _) (by simp)⟩
    | .null :: rest, short | .bool _ :: rest, short | .number _ :: rest, short | .string _ :: rest, short =>
      exact .inr ⟨_, .unexpectedSecond kind (by simpa using short) (by simp) (by simp)⟩

theorem readEntry_eq_ok_iff {action : Action} :
    readEntry eventType selfTarget index entry = .ok action ↔ EntryForm selfTarget entry action := by
  refine ⟨fun h => ?_, readEntry_of_form⟩
  rcases form_or_fault eventType selfTarget index entry with ⟨other, hform⟩ | ⟨cause, hfault⟩
  · rw [readEntry_of_form hform] at h
    exact Except.ok.inj h ▸ hform
  · simp [readEntry_of_fault hfault] at h

theorem readEntry_eq_error_iff :
    readEntry eventType selfTarget index entry = .error cause ↔ EntryFault eventType index entry cause := by
  refine ⟨fun h => ?_, readEntry_of_fault⟩
  rcases form_or_fault eventType selfTarget index entry with ⟨other, hform⟩ | ⟨found, hfault⟩
  · simp [readEntry_of_form hform] at h
  · exact Except.error.inj ((readEntry_of_fault hfault).symm.trans h) ▸ hfault

/-! ### Entries and events in order -/

theorem readEntries_eq_ok_iff {entries : List Json} {actions : List Action} :
    readEntries eventType selfTarget index entries = .ok actions ↔
      List.Forall₂ (EntryForm selfTarget) entries actions := by
  induction entries generalizing index actions with
  | nil =>
    rw [List.forall₂_nil_left_iff, readEntries, Except.ok.injEq]
    exact eq_comm
  | cons entry rest ih =>
    rw [List.forall₂_cons_left_iff, readEntries]
    constructor
    · intro h
      cases hentry : readEntry eventType selfTarget index entry with
      | error cause => simp [hentry, bind, Except.bind] at h
      | ok action =>
        cases hrest : readEntries eventType selfTarget (index + 1) rest with
        | error cause => simp [hentry, hrest, bind, Except.bind] at h
        | ok more =>
          simp only [hentry, hrest, bind, Except.bind, pure, Except.pure, Except.ok.injEq] at h
          exact ⟨action, more, readEntry_eq_ok_iff.1 hentry, ih.1 hrest, h.symm⟩
    · rintro ⟨action, more, hform, hforms, rfl⟩
      rw [readEntry_of_form hform, ih.2 hforms]
      rfl

/-- Of the entries that have a fault the first is reported. -/
theorem readEntries_eq_error_iff {entries : List Json} :
    readEntries eventType selfTarget index entries = .error cause ↔
      ∃ before entry after, entries = before ++ entry :: after ∧
        (∀ earlier ∈ before, ∃ action, EntryForm selfTarget earlier action) ∧
        EntryFault eventType (index + before.length) entry cause := by
  induction entries generalizing index with
  | nil => simp [readEntries]
  | cons first rest ih =>
    rw [readEntries]
    constructor
    · intro h
      cases hfirst : readEntry eventType selfTarget index first with
      | error found =>
        simp only [hfirst, bind, Except.bind, Except.error.injEq] at h
        subst h
        exact ⟨[], first, rest, rfl, by simp, readEntry_eq_error_iff.1 hfirst⟩
      | ok action =>
        cases hrest : readEntries eventType selfTarget (index + 1) rest with
        | ok more => simp [hfirst, hrest, bind, Except.bind, pure, Except.pure] at h
        | error found =>
          simp only [hfirst, hrest, bind, Except.bind, Except.error.injEq] at h
          subst h
          obtain ⟨before, entry, after, rfl, hforms, hfault⟩ := ih.1 hrest
          refine ⟨first :: before, entry, after, rfl, ?_, ?_⟩
          · exact List.forall_mem_cons.2 ⟨⟨action, readEntry_eq_ok_iff.1 hfirst⟩, hforms⟩
          · rwa [List.length_cons, Nat.add_comm before.length, ← Nat.add_assoc]
    · rintro ⟨before, entry, after, hsplit, hforms, hfault⟩
      cases before with
      | nil =>
        obtain ⟨rfl, rfl⟩ := List.cons.inj hsplit
        have hfirst : readEntry eventType selfTarget index first = .error cause := readEntry_of_fault hfault
        rw [hfirst]
        rfl
      | cons _ before =>
        obtain ⟨rfl, rfl⟩ := List.cons.inj hsplit
        obtain ⟨⟨action, hform⟩, hforms⟩ := List.forall_mem_cons.1 hforms
        rw [List.length_cons, Nat.add_comm before.length, ← Nat.add_assoc] at hfault
        rw [readEntry_of_form hform, ih.2 ⟨before, entry, after, rfl, hforms, hfault⟩]
        rfl

variable {member : String × Json}

theorem readEvent_eq_ok_iff {event : String × List Action} :
    readEvent selfTarget member = .ok event ↔ EventForm selfTarget member event := by
  constructor
  · intro h
    unfold readEvent at h
    split at h
    · rename_i eventType entries
      cases hread : readEntries eventType selfTarget 0 entries with
      | error cause => simp [hread, bind, Except.bind] at h
      | ok actions =>
        simp only [hread, bind, Except.bind, pure, Except.pure, Except.ok.injEq] at h
        exact h ▸ .intro eventType (readEntries_eq_ok_iff.1 hread)
    · simp at h
  · rintro ⟨eventType, forms⟩
    rw [readEvent, readEntries_eq_ok_iff.2 forms]
    rfl

theorem readEvent_eq_error_iff :
    readEvent selfTarget member = .error cause ↔ EventFault selfTarget member cause := by
  constructor
  · intro h
    unfold readEvent at h
    split at h
    · rename_i eventType entries
      cases hread : readEntries eventType selfTarget 0 entries with
      | ok actions => simp [hread, bind, Except.bind, pure, Except.pure] at h
      | error found =>
        simp only [hread, bind, Except.bind, Except.error.injEq] at h
        subst h
        obtain ⟨before, entry, after, rfl, hforms, hfault⟩ := readEntries_eq_error_iff.1 hread
        exact .entry hforms (Nat.zero_add before.length ▸ hfault)
    · rename_i eventType value hlist
      exact Except.error.inj h ▸ .notAList hlist
  · intro h
    cases h with
    | @notAList eventType value h =>
      unfold readEvent
      split
      · rename_i entries he
        exact absurd (Prod.mk.inj he).2 (h entries)
      · rename_i he
        rw [(Prod.mk.inj he).1]
    | @entry eventType before after entry _ forms fault =>
      have hread : readEntries eventType selfTarget 0 (before ++ entry :: after) = .error cause :=
        readEntries_eq_error_iff.2 ⟨before, entry, after, rfl, forms, (Nat.zero_add before.length).symm ▸ fault⟩
      rw [readEvent, hread]
      rfl

theorem exists_of_mem_left {α β : Type} {R : α → β → Prop} {given : List α} {read : List β}
    (h : List.Forall₂ R given read) {a : α} (ha : a ∈ given) : ∃ b ∈ read, R a b := by
  induction h with
  | nil => exact absurd ha List.not_mem_nil
  | cons hab _ ih =>
    rcases List.mem_cons.1 ha with rfl | ha
    · exact ⟨_, List.mem_cons_self, hab⟩
    · obtain ⟨b, hb, hR⟩ := ih ha
      exact ⟨b, List.mem_cons_of_mem _ hb, hR⟩

theorem exists_of_mem_right {α β : Type} {R : α → β → Prop} {given : List α} {read : List β}
    (h : List.Forall₂ R given read) {b : β} (hb : b ∈ read) : ∃ a ∈ given, R a b :=
  exists_of_mem_left (R := flip R) (List.Forall₂.flip h) hb

private theorem exists_of_forall₂ {α β : Type} {R : α → β → Prop} {given : List α} {read : List β}
    (h : List.Forall₂ R given read) : ∀ a ∈ given, ∃ b, R a b := by
  intro a ha
  obtain ⟨b, -, hab⟩ := exists_of_mem_left h ha
  exact ⟨b, hab⟩

private theorem forall₂_of_exists {α β : Type} {R : α → β → Prop} {given : List α} (h : ∀ a ∈ given, ∃ b, R a b) :
    ∃ read, List.Forall₂ R given read := by
  induction given with
  | nil => exact ⟨[], .nil⟩
  | cons first rest ih =>
    obtain ⟨⟨b, hb⟩, hrest⟩ := List.forall_mem_cons.1 h
    obtain ⟨more, hmore⟩ := ih hrest
    exact ⟨b :: more, .cons hb hmore⟩

/-- A member declares actions exactly if it is a list whose entries do. -/
theorem exists_eventForm_iff : (∃ event, EventForm selfTarget member event) ↔ ∃ entries,
    member.2 = .array entries ∧ ∀ entry ∈ entries, ∃ action, EntryForm selfTarget entry action := by
  constructor
  · rintro ⟨_, eventType, forms⟩
    exact ⟨_, rfl, exists_of_forall₂ forms⟩
  · obtain ⟨eventType, value⟩ := member
    rintro ⟨entries, rfl, hentries⟩
    obtain ⟨actions, forms⟩ := forall₂_of_exists hentries
    exact ⟨_, .intro eventType forms⟩

/-- Reading each element of a list succeeds exactly if it does at every one. -/
private theorem mapM_eq_ok_iff {α β ε : Type} {f : α → Except ε β} {given : List α} {read : List β} :
    given.mapM f = .ok read ↔ List.Forall₂ (fun a b => f a = .ok b) given read := by
  induction given generalizing read with
  | nil =>
    rw [List.forall₂_nil_left_iff, List.mapM_nil]
    exact Except.ok.injEq [] read ▸ eq_comm
  | cons first rest ih =>
    rw [List.forall₂_cons_left_iff, List.mapM_cons]
    cases hfirst : f first with
    | error cause => simp [bind, Except.bind]
    | ok b =>
      cases hrest : rest.mapM f with
      | error cause => simp [← ih, hrest, bind, Except.bind]
      | ok more => simp [← ih, hrest, bind, Except.bind, pure, Except.pure, eq_comm]

/-- Reading each element of a list fails as it does at the first element where it does. -/
private theorem mapM_eq_error_iff {α β ε : Type} {f : α → Except ε β} {given : List α} {cause : ε} :
    given.mapM f = .error cause ↔ ∃ before a after, given = before ++ a :: after ∧
      (∀ earlier ∈ before, ∃ b, f earlier = .ok b) ∧ f a = .error cause := by
  induction given with
  | nil => simp [pure, Except.pure]
  | cons first rest ih =>
    rw [List.mapM_cons]
    constructor
    · intro h
      cases hfirst : f first with
      | error found =>
        simp only [hfirst, bind, Except.bind, Except.error.injEq] at h
        exact ⟨[], first, rest, rfl, by simp, h ▸ hfirst⟩
      | ok b =>
        cases hrest : rest.mapM f with
        | ok more => simp [hfirst, hrest, bind, Except.bind, pure, Except.pure] at h
        | error found =>
          simp only [hfirst, hrest, bind, Except.bind, Except.error.injEq] at h
          obtain ⟨before, a, after, rfl, hbefore, ha⟩ := ih.1 (h ▸ hrest)
          exact ⟨first :: before, a, after, rfl, List.forall_mem_cons.2 ⟨⟨b, hfirst⟩, hbefore⟩, ha⟩
    · rintro ⟨before, a, after, hsplit, hbefore, ha⟩
      cases before with
      | nil =>
        obtain ⟨rfl, rfl⟩ := List.cons.inj hsplit
        rw [ha]
        rfl
      | cons _ before =>
        obtain ⟨rfl, rfl⟩ := List.cons.inj hsplit
        obtain ⟨⟨b, hfirst⟩, hbefore⟩ := List.forall_mem_cons.1 hbefore
        rw [hfirst, ih.2 ⟨before, a, after, rfl, hbefore, ha⟩]
        rfl

/-! ### Texts -/

variable {text : String} {bindings : Bindings} {members : List (String × Json)}

private theorem mapM_readEvent_eq_ok_iff {events : List (String × List Action)} :
    members.mapM (readEvent selfTarget) = .ok events ↔ List.Forall₂ (EventForm selfTarget) members events := by
  simp only [mapM_eq_ok_iff, readEvent_eq_ok_iff]

theorem ofJson_eq_ok_iff {value : Json} : ofJson selfTarget value = .ok bindings ↔
    ∃ members, value = .object members ∧ List.Forall₂ (EventForm selfTarget) members bindings.events := by
  cases value with
  | object members =>
    simp only [ofJson, Json.object.injEq, exists_eq_left', ← mapM_readEvent_eq_ok_iff]
    cases members.mapM (readEvent selfTarget) with
    | error cause => simp [bind, Except.bind]
    | ok events =>
      simp only [bind, Except.bind, pure, Except.pure, Except.ok.injEq]
      exact ⟨fun h => h ▸ rfl, fun h => h ▸ rfl⟩
  | _ => simp [ofJson]

theorem ofJson_object_eq_error_iff : ofJson selfTarget (.object members) = .error cause ↔
    ∃ before member after, members = before ++ member :: after ∧
      (∀ earlier ∈ before, ∃ event, EventForm selfTarget earlier event) ∧ EventFault selfTarget member cause := by
  simp only [← readEvent_eq_ok_iff, ← readEvent_eq_error_iff]
  rw [← mapM_eq_error_iff, ofJson]
  cases members.mapM (readEvent selfTarget) with
  | error found => simp [bind, Except.bind]
  | ok events => simp [bind, Except.bind, pure, Except.pure]

theorem parse_eq_ok_iff : parse text selfTarget = .ok bindings ↔ ∃ members,
    Json.parse? text = some (.object members) ∧ List.Forall₂ (EventForm selfTarget) members bindings.events := by
  unfold parse
  cases Json.parse? text with
  | none => simp
  | some value => simp only [ofJson_eq_ok_iff, Option.some.injEq]

theorem parse_eq_error_iff : parse text selfTarget = .error cause ↔
    Json.parse? text = none ∧ cause = .notJson ∨
    (∃ value, Json.parse? text = some value ∧ (∀ members, value ≠ .object members) ∧ cause = .notAMapping) ∨
    ∃ before member after, Json.parse? text = some (.object (before ++ member :: after)) ∧
      ((before ++ member :: after).map (·.1)).Pairwise (· < ·) ∧
      (∀ earlier ∈ before, ∃ event, EventForm selfTarget earlier event) ∧ EventFault selfTarget member cause := by
  unfold parse
  cases hread : Json.parse? text with
  | none =>
    constructor
    · intro h
      exact .inl ⟨rfl, (Except.error.inj h).symm⟩
    · rintro (⟨-, rfl⟩ | ⟨value, hvalue, -⟩ | ⟨before, member, after, hobject, -⟩)
      · rfl
      · simp at hvalue
      · simp at hobject
  | some value =>
    cases value with
    | object members =>
      have hnames := Json.pairwise_of_parse? hread
      rw [ofJson_object_eq_error_iff]
      constructor
      · rintro ⟨before, member, after, rfl, hforms, hfault⟩
        exact .inr (.inr ⟨before, member, after, rfl, hnames, hforms, hfault⟩)
      · rintro (⟨hnone, -⟩ | ⟨_, he, hobject, -⟩ | ⟨before, member, after, he, -, hforms, hfault⟩)
        · simp at hnone
        · exact absurd (Option.some.inj he).symm (hobject members)
        · exact ⟨before, member, after, by simpa using he, hforms, hfault⟩
    | _ =>
      constructor
      · intro h
        exact .inr (.inl ⟨_, rfl, fun members => Json.noConfusion, (Except.error.inj h).symm⟩)
      · rintro (⟨hnone, -⟩ | ⟨value, -, -, rfl⟩ | ⟨before, member, after, hobject, -⟩)
        · simp at hnone
        · rfl
        · simp at hobject

/--
A text can be read exactly if it is an object of lists of entries that have a form, and its bindings are then those
that the members declare, one by one.  Otherwise the answer is the fault of the first member that has one, by name,
and in it of the first entry; or that the text is no JSON, or no object.
-/
theorem reads_grammar (text : String) (selfTarget : Option String) :
    ((∃ bindings, parse text selfTarget = .ok bindings) ↔
      ∃ members, Json.parse? text = some (.object members) ∧ ∀ member ∈ members, ∃ entries,
        member.2 = .array entries ∧ ∀ entry ∈ entries, ∃ action, EntryForm selfTarget entry action) ∧
    (∀ bindings, parse text selfTarget = .ok bindings ↔
      ∃ members, Json.parse? text = some (.object members) ∧
        List.Forall₂ (EventForm selfTarget) members bindings.events) ∧
    ∀ cause, parse text selfTarget = .error cause ↔
      Json.parse? text = none ∧ cause = .notJson ∨
      (∃ value, Json.parse? text = some value ∧ (∀ members, value ≠ .object members) ∧ cause = .notAMapping) ∨
      ∃ before member after, Json.parse? text = some (.object (before ++ member :: after)) ∧
        ((before ++ member :: after).map (·.1)).Pairwise (· < ·) ∧
        (∀ earlier ∈ before, ∃ event, EventForm selfTarget earlier event) ∧ EventFault selfTarget member cause := by
  refine ⟨?_, fun bindings => parse_eq_ok_iff, fun cause => parse_eq_error_iff⟩
  simp only [parse_eq_ok_iff, ← exists_eventForm_iff]
  constructor
  · rintro ⟨bindings, members, hread, forms⟩
    exact ⟨members, hread, exists_of_forall₂ forms⟩
  · rintro ⟨members, hread, hforms⟩
    obtain ⟨events, forms⟩ := forall₂_of_exists hforms
    exact ⟨⟨events⟩, members, hread, forms⟩

end Bindings

end PageBindings
