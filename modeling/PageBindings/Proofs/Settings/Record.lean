import Mathlib.Data.List.Nodup
import PageBindings.Proofs.Settings.Values

/-!
# Records in the grammar

A record is written as an object with the fields as members or as an array with the values of the first fields
(`Raw.IsRecord`).  Reading goes through the members from left to right (`Takes`), but what it makes of them does not
depend on their order: a field that does not occur keeps its value, one that occurs once has the value written, and
no field occurs twice (`takes_iff`, `Layout.reads_record`).
-/

namespace PageBindings

namespace Json

/-- A member as it is written, with its name read. -/
def IsNamed (raw : List Piece × Raw) (m : String × Raw) : Prop :=
  textOf? raw.1 = some m.1 ∧ raw.2 = m.2

/-- The members of a record with these fields: those of an object, or the items of an array under the names in their
order. -/
inductive Raw.IsRecord (names : List String) : Raw → List (String × Raw) → Prop where
  | object {raws : List (List Piece × Raw)} {members : List (String × Raw)} (h : List.Forall₂ IsNamed raws members) :
      Raw.IsRecord names (.object raws) members
  | array {items : List Raw} (h : items.length ≤ names.length) : Raw.IsRecord names (.array items) (names.zip items)

/-- What is written under a name. -/
def valuesOf (name : String) (members : List (String × Raw)) : List Raw :=
  (members.filter fun m => m.1 == name).map Prod.snd

variable {name : String} {v : Raw} {members : List (String × Raw)}

@[simp] theorem valuesOf_nil (name : String) : valuesOf name [] = [] :=
  rfl

@[simp] theorem valuesOf_cons_self (name : String) (v : Raw) (members : List (String × Raw)) :
    valuesOf name ((name, v) :: members) = v :: valuesOf name members := by
  simp [valuesOf]

theorem valuesOf_cons_of_ne {other : String} (h : other ≠ name) (v : Raw) (members : List (String × Raw)) :
    valuesOf name ((other, v) :: members) = valuesOf name members := by
  simp [valuesOf, h]

end Json

namespace Settings

open Json

/-- A field of a record: how its value is written and read, and where it stands in the record. -/
structure Slot (ρ : Type) where
  Value : Type
  name : String
  form : Raw → Value → Prop
  read : List Char → Except SettingsError (Value × List Char)
  get : ρ → Value
  set : Value → ρ → ρ
  reads : Reads read form
  get_set (value : Value) (record : ρ) : get (set value record) = value

namespace Slot

variable {ρ : Type}

/-- The field as it is read. -/
def field (slot : Slot ρ) : Field ρ :=
  .of slot.name slot.read slot.set

/-- A field that does not occur keeps its value, and one that occurs once has the value that is written. -/
def Settles (slot : Slot ρ) (before after : ρ) (values : List Raw) : Prop :=
  (values = [] ∧ slot.get after = slot.get before) ∨ ∃ v, values = [v] ∧ slot.form v (slot.get after)

end Slot

/-- All fields of a record, with names and places of their own. -/
structure Layout (ρ : Type) where
  slots : List (Slot ρ)
  nodup : (slots.map Slot.name).Nodup
  get_set_of_ne {s t : Slot ρ} (hs : s ∈ slots) (ht : t ∈ slots) (h : s.name ≠ t.name) (value : s.Value)
    (record : ρ) :
    t.get (s.set value record) = t.get record
  ext {record record' : ρ} (h : ∀ slot ∈ slots, slot.get record = slot.get record') : record = record'

variable {ρ : Type} {slots : List (Slot ρ)} {seen seen' : List String} {record record' result : ρ}
  {members : List (String × Raw)} {m : String × Raw} {cs rest : List Char} {name : String}

/-! ### From left to right -/

/-- What one member does to a record and the fields that have occurred. -/
inductive Step (slots : List (Slot ρ)) (seen : List String) (record : ρ) : String × Raw → List String → ρ → Prop where
  | known {slot : Slot ρ} {v : Raw} {value : slot.Value} (hslot : slot ∈ slots) (hseen : slot.name ∉ seen)
      (hform : slot.form v value) :
      Step slots seen record (slot.name, v) (slot.name :: seen) (slot.set value record)
  | unknown {name : String} {v : Raw} (h : ∀ slot ∈ slots, slot.name ≠ name) :
      Step slots seen record (name, v) seen record

/-- What the members do one after the other. -/
inductive Takes (slots : List (Slot ρ)) : List String → ρ → List (String × Raw) → ρ → Prop where
  | nil {seen : List String} {record : ρ} : Takes slots seen record [] record
  | cons {seen seen' : List String} {record record' result : ρ} {m : String × Raw} {members : List (String × Raw)}
      (first : Step slots seen record m seen' record') (more : Takes slots seen' record' members result) :
      Takes slots seen record (m :: members) result

theorem Layout.eq_of_name_eq (layout : Layout ρ) {s t : Slot ρ} (hs : s ∈ layout.slots) (ht : t ∈ layout.slots)
    (h : s.name = t.name) : s = t :=
  List.inj_on_of_nodup_map layout.nodup hs ht h

private theorem Slot.settles_set_iff (layout : Layout ρ) {s t : Slot ρ} (hs : s ∈ layout.slots)
    (ht : t ∈ layout.slots) (h : s.name ≠ t.name) {value : s.Value} {values : List Raw} :
    t.Settles (s.set value record) result values ↔ t.Settles record result values := by
  unfold Settles
  rw [layout.get_set_of_ne hs ht h]

/--
What a field needs of the members that are still to come: they settle it, or they leave it out if it has occurred.
-/
def Slot.Needs (slot : Slot ρ) (seen : List String) (record result : ρ) (members : List (String × Raw)) : Prop :=
  slot.Settles record result (valuesOf slot.name members) ∧ (slot.name ∈ seen → valuesOf slot.name members = [])

/-- A step back: a member in front, and what each field needs before it. -/
private theorem Step.needs (layout : Layout ρ) {t : Slot ρ} (ht : t ∈ layout.slots)
    (first : Step layout.slots seen record m seen' record') (h : t.Needs seen' record' result members) :
    t.Needs seen record result (m :: members) := by
  obtain ⟨hsettles, hempty⟩ := h
  unfold Slot.Needs
  cases first with
  | @known slot v value hslot hseen hform =>
    by_cases heq : slot.name = t.name
    · obtain rfl := layout.eq_of_name_eq hslot ht heq
      have hrest := hempty List.mem_cons_self
      obtain ⟨-, hget⟩ | ⟨w, hw, -⟩ := hsettles
      · rw [slot.get_set] at hget
        rw [valuesOf_cons_self, hrest]
        exact ⟨.inr ⟨v, rfl, hget ▸ hform⟩, fun h => absurd h hseen⟩
      · simp [hrest] at hw
    · rw [valuesOf_cons_of_ne heq]
      exact ⟨(Slot.settles_set_iff layout hslot ht heq).1 hsettles, fun h => hempty (List.mem_cons_of_mem _ h)⟩
  | unknown hname =>
    rw [valuesOf_cons_of_ne (hname t ht).symm]
    exact ⟨hsettles, hempty⟩

/-- A step forward: if all fields have what they need, the first member can be taken, and they have it after it. -/
private theorem exists_step (layout : Layout ρ) (h : ∀ t ∈ layout.slots, t.Needs seen record result (m :: members)) :
    ∃ seen' record', Step layout.slots seen record m seen' record' ∧
      ∀ t ∈ layout.slots, t.Needs seen' record' result members := by
  obtain ⟨name, v⟩ := m
  by_cases hknown : ∃ slot ∈ layout.slots, slot.name = name
  · obtain ⟨slot, hslot, rfl⟩ := hknown
    obtain ⟨hsettles, hempty⟩ := h slot hslot
    rw [valuesOf_cons_self] at hsettles hempty
    obtain ⟨hnil, -⟩ | ⟨w, hw, hform⟩ := hsettles
    · simp at hnil
    obtain ⟨rfl, hrest⟩ := List.cons.inj hw
    have hseen : slot.name ∉ seen := fun hmem => by simpa using hempty hmem
    refine ⟨_, _, .known hslot hseen hform, fun t ht => ?_⟩
    by_cases heq : slot.name = t.name
    · obtain rfl := layout.eq_of_name_eq hslot ht heq
      exact ⟨.inl ⟨hrest, (slot.get_set _ _).symm⟩, fun _ => hrest⟩
    · obtain ⟨hother, hunseen⟩ := h t ht
      rw [valuesOf_cons_of_ne heq] at hother hunseen
      refine ⟨(Slot.settles_set_iff layout hslot ht heq).2 hother, fun hmem => ?_⟩
      rcases List.mem_cons.1 hmem with hsame | hmem
      · exact absurd hsame.symm heq
      · exact hunseen hmem
  · have hname : ∀ slot ∈ layout.slots, slot.name ≠ name := fun slot hslot heq => hknown ⟨slot, hslot, heq⟩
    refine ⟨_, _, .unknown hname, fun t ht => ?_⟩
    have hneeds := h t ht
    unfold Slot.Needs at hneeds
    rw [valuesOf_cons_of_ne (hname t ht).symm] at hneeds
    exact hneeds

/-- The order of the members does not matter: each field is settled by what is written under its name. -/
theorem takes_iff (layout : Layout ρ) : Takes layout.slots seen record members result ↔
    ∀ slot ∈ layout.slots, slot.Needs seen record result members := by
  induction members generalizing seen record with
  | nil =>
    constructor
    · intro h slot hslot
      cases h
      exact ⟨.inl ⟨rfl, rfl⟩, fun _ => rfl⟩
    · intro h
      have heq : record = result := by
        refine layout.ext fun slot hslot => ?_
        obtain ⟨⟨-, hget⟩ | ⟨v, hv, -⟩, -⟩ := h slot hslot
        · exact hget.symm
        · simp at hv
      exact heq ▸ .nil
  | cons m members ih =>
    constructor
    · intro h slot hslot
      obtain _ | ⟨first, more⟩ := h
      exact first.needs layout hslot (ih.1 more slot hslot)
    · intro h
      obtain ⟨seen', record', first, hneeds⟩ := exists_step layout h
      exact .cons first (ih.2 hneeds)

private theorem Step.of_name_eq (layout : Layout ρ) {slot : Slot ρ} (hslot : slot ∈ layout.slots)
    (hm : m.1 = slot.name) (h : Step layout.slots seen record m seen' record') :
    seen' = slot.name :: seen ∧ ∃ value, slot.form m.2 value ∧ record' = slot.set value record := by
  cases h with
  | known hother hseen hform =>
    obtain rfl := layout.eq_of_name_eq hother hslot hm
    exact ⟨rfl, _, hform, rfl⟩
  | unknown hname => exact absurd hm.symm (hname slot hslot)

/-! ### Objects -/

/-- What is read after the name of a member. -/
private def readMember (fields : List (Field ρ)) (seen : List String) (record : ρ) (name : String) (cs : List Char) :
    Except SettingsError (ρ × List String × List Char) :=
  match fields.find? (·.name == name) with
  | some field => do
    if seen.contains name then .error (.duplicateField name)
    let rest ← readColon cs
    let (change, rest) ← field.read rest
    pure (change record, name :: seen, rest)
  | none => do
    let rest ← readColon cs
    let (_, rest) ← grammatical (Json.Raw.read? rest)
    pure (record, seen, rest)

/-- What is read after the value of a member. -/
private def readOn (fields : List (Field ρ)) (fuel : Nat) (step : ρ × List String × List Char) :
    Except SettingsError (ρ × List Char) :=
  match Json.skipSpace step.2.2 with
  | '\x7d' :: rest => return (step.1, rest)
  | ',' :: rest => readMembersWithin fields fuel step.2.1 step.1 rest
  | _ => .error .notJson

private theorem readMembersWithin_succ (fields : List (Field ρ)) (fuel : Nat) {inner : List Char}
    (h : skipSpace cs = '"' :: inner) : readMembersWithin fields (fuel + 1) seen record cs = (do
      let (pieces, rest) ← grammatical (readPieces? inner)
      let name ← grammatical (textOf? pieces)
      let step ← readMember fields seen record name rest
      readOn fields fuel step) := by
  unfold readMembersWithin
  rw [h]
  refine bind_congr fun ⟨pieces, close⟩ => bind_congr fun name => ?_
  simp only [readMember, readOn]
  cases fields.find? (·.name == name) with
  | none =>
    cases readColon close with
    | error error => rfl
    | ok colon =>
      show (grammatical (Raw.read? colon) >>= _) = (grammatical (Raw.read? colon) >>= _) >>= _
      cases grammatical (Raw.read? colon) <;> rfl
  | some field =>
    simp only
    split
    · rfl
    · cases readColon close with
      | error error => rfl
      | ok colon =>
        show (field.read colon >>= _) = (field.read colon >>= _) >>= _
        cases field.read colon <;> rfl

theorem readColon_eq_ok_iff : readColon cs = .ok rest ↔ SpaceAt cs (':' :: rest) := by
  rw [spaceAt_cons_iff (by decide)]
  unfold readColon
  constructor
  · intro h
    split at h
    · rename_i after hafter
      obtain rfl := Except.ok.inj h
      exact hafter
    · simp at h
  · intro h
    rw [h]
    rfl

private theorem Slot.field_read_eq_ok_iff {slot : Slot ρ} {change : ρ → ρ} :
    slot.field.read cs = .ok (change, rest) ↔
      ∃ value, slot.read cs = .ok (value, rest) ∧ slot.set value = change := by
  constructor
  · intro h
    obtain ⟨⟨value, after⟩, hread, h⟩ := bind_eq_ok_iff.1 h
    obtain ⟨rfl, rfl⟩ := Prod.mk.inj (Except.ok.inj h)
    exact ⟨value, hread, rfl⟩
  · rintro ⟨value, hread, rfl⟩
    exact bind_eq_ok_iff.2 ⟨_, hread, rfl⟩

private theorem find?_fields (slots : List (Slot ρ)) (name : String) :
    (slots.map Slot.field).find? (·.name == name) = (slots.find? (·.name == name)).map Slot.field :=
  List.find?_map

private theorem Layout.find?_eq_some (layout : Layout ρ) {slot : Slot ρ} (h : slot ∈ layout.slots) :
    layout.slots.find? (·.name == slot.name) = some slot := by
  cases hfind : layout.slots.find? (·.name == slot.name) with
  | none => exact absurd (List.find?_eq_none.1 hfind slot h) (by simp)
  | some found =>
    have hname : found.name = slot.name := by simpa using List.find?_some hfind
    rw [layout.eq_of_name_eq (List.mem_of_find?_eq_some hfind) h hname]

private theorem readMember_unknown_iff {slots : List (Slot ρ)} {mid : List Char}
    (hfind : slots.find? (·.name == name) = none) :
    readMember (slots.map Slot.field) seen record name cs = .ok (record', seen', mid) ↔
      ∃ colon v, readColon cs = .ok colon ∧ Raw.read? colon = some (v, mid) ∧ record = record' ∧ seen = seen' := by
  unfold readMember
  rw [find?_fields, hfind]
  constructor
  · intro h
    obtain ⟨colon, hcolon, h⟩ := bind_eq_ok_iff.1 h
    obtain ⟨⟨v, after⟩, hv, h⟩ := bind_eq_ok_iff.1 h
    obtain ⟨rfl, rfl, rfl⟩ : record = record' ∧ seen = seen' ∧ after = mid := by simpa [pure, Except.pure] using h
    exact ⟨colon, v, hcolon, grammatical_eq_ok_iff.1 hv, rfl, rfl⟩
  · rintro ⟨colon, v, hcolon, hv, rfl, rfl⟩
    exact bind_eq_ok_iff.2 ⟨colon, hcolon, bind_eq_ok_iff.2 ⟨_, grammatical_eq_ok_iff.2 hv, rfl⟩⟩

private theorem readMember_known_iff {slots : List (Slot ρ)} {slot : Slot ρ} {mid : List Char}
    (hfind : slots.find? (·.name == name) = some slot) :
    readMember (slots.map Slot.field) seen record name cs = .ok (record', seen', mid) ↔
      name ∉ seen ∧ ∃ colon value, readColon cs = .ok colon ∧ slot.read colon = .ok (value, mid) ∧
        slot.set value record = record' ∧ name :: seen = seen' := by
  unfold readMember
  rw [find?_fields, hfind, Option.map_some]
  simp only
  split
  · rename_i hseen
    have hmem : name ∈ seen := by simpa using hseen
    simp [hmem, bind, Except.bind]
  · rename_i hseen
    have hnotin : name ∉ seen := by simpa using hseen
    simp only [hnotin, not_false_eq_true, true_and]
    constructor
    · intro h
      obtain ⟨colon, hcolon, h⟩ := bind_eq_ok_iff.1 h
      obtain ⟨⟨change, after⟩, hchange, h⟩ := bind_eq_ok_iff.1 h
      obtain ⟨rfl, rfl, rfl⟩ : change record = record' ∧ name :: seen = seen' ∧ after = mid := by
        simpa [pure, Except.pure] using h
      obtain ⟨value, hvalue, rfl⟩ := Slot.field_read_eq_ok_iff.1 hchange
      exact ⟨colon, value, hcolon, hvalue, rfl, rfl⟩
    · rintro ⟨colon, value, hcolon, hvalue, rfl, rfl⟩
      have hchange := Slot.field_read_eq_ok_iff.2 ⟨value, hvalue, rfl⟩
      refine bind_eq_ok_iff.2 ⟨colon, hcolon, bind_eq_ok_iff.2 ⟨_, hchange, ?_⟩⟩
      simp [pure, Except.pure]

/-- After its name a member goes on with a colon and a value, and does what members of this name do. -/
private theorem exists_readMember_iff (layout : Layout ρ) (hrest : EndsValue rest) :
    (∃ mid, readMember (layout.slots.map Slot.field) seen record name cs = .ok (record', seen', mid) ∧
      skipSpace mid = rest) ↔
    ∃ colon v, SpaceAt cs (':' :: colon) ∧ ElementAt colon v rest ∧
      Step layout.slots seen record (name, v) seen' record' := by
  constructor
  · rintro ⟨mid, hread, hmid⟩
    have hspace := spaceAt_of_skipSpace_eq hmid
    cases hfind : layout.slots.find? (·.name == name) with
    | none =>
      obtain ⟨colon, v, hcolon, hv, rfl, rfl⟩ := (readMember_unknown_iff hfind).1 hread
      obtain ⟨inner, before, hvalueAt⟩ := exists_valueAt_of_read? hv
      refine ⟨colon, v, readColon_eq_ok_iff.1 hcolon, .intro before hvalueAt hspace, .unknown fun slot hslot => ?_⟩
      simpa using List.find?_eq_none.1 hfind slot hslot
    | some slot =>
      obtain rfl : slot.name = name := by simpa using List.find?_some hfind
      obtain ⟨hseen, colon, value, hcolon, hvalue, rfl, rfl⟩ := (readMember_known_iff hfind).1 hread
      obtain ⟨inner, v, before, hvalueAt, hform⟩ := slot.reads.1 hvalue
      exact ⟨colon, v, readColon_eq_ok_iff.1 hcolon, .intro before hvalueAt hspace,
        .known (List.mem_of_find?_eq_some hfind) hseen hform⟩
  · rintro ⟨colon, v, hcolon, item, hstep⟩
    have hcolon := readColon_eq_ok_iff.2 hcolon
    cases hstep with
    | @known slot _ value hslot hseen hform =>
      obtain ⟨before, hvalueAt, hspace⟩ := item
      have hvalue := slot.reads.2 ⟨_, _, before, hvalueAt, hform⟩
      exact ⟨_, (readMember_known_iff (layout.find?_eq_some hslot)).2 ⟨hseen, colon, value, hcolon, hvalue, rfl, rfl⟩,
        hspace.skipSpace_eq.trans hrest.skipSpace_eq⟩
    | unknown hname =>
      obtain ⟨after, hread, hafter⟩ := read?_of_elementAt item hrest
      have hfind : layout.slots.find? (·.name == name) = none := by
        rw [List.find?_eq_none]
        intro slot hslot
        simpa using hname slot hslot
      exact ⟨after, (readMember_unknown_iff hfind).2 ⟨colon, v, hcolon, hread, rfl, rfl⟩, hafter⟩

private theorem readOn_eq_ok_iff {fields : List (Field ρ)} {fuel : Nat} {mid : List Char} :
    readOn fields fuel (record', seen', mid) = .ok (result, rest) ↔
      (skipSpace mid = '\x7d' :: rest ∧ record' = result) ∨
        ∃ more, skipSpace mid = ',' :: more ∧
          readMembersWithin fields fuel seen' record' more = .ok (result, rest) := by
  unfold readOn
  constructor
  · intro h
    split at h
    · rename_i last hlast
      obtain ⟨rfl, rfl⟩ := Prod.mk.inj (Except.ok.inj h)
      exact .inl ⟨hlast, rfl⟩
    · rename_i more hmore
      exact .inr ⟨more, hmore, h⟩
    · simp at h
  · rintro (⟨hlast, rfl⟩ | ⟨more, hmore, h⟩)
    · simp only [hlast]
      rfl
    · simp only [hmore]
      exact h

private theorem readMembersWithin_succ_eq_ok_iff (layout : Layout ρ) {fuel : Nat} :
    readMembersWithin (layout.slots.map Slot.field) (fuel + 1) seen record cs = .ok (result, rest) ↔
      ∃ pieces colon name v seen' record', NameAt cs pieces colon ∧ textOf? pieces = some name ∧
        Step layout.slots seen record (name, v) seen' record' ∧
        ((ElementAt colon v ('\x7d' :: rest) ∧ record' = result) ∨ ∃ more, ElementAt colon v (',' :: more) ∧
          readMembersWithin (layout.slots.map Slot.field) fuel seen' record' more = .ok (result, rest)) := by
  constructor
  · intro h
    have hopen : ∃ inner, skipSpace cs = '"' :: inner := by
      unfold readMembersWithin at h
      split at h
      · rename_i inner hinner
        exact ⟨inner, hinner⟩
      · simp at h
    obtain ⟨inner, hinner⟩ := hopen
    rw [readMembersWithin_succ _ _ hinner] at h
    obtain ⟨⟨pieces, close⟩, hpieces, h⟩ := bind_eq_ok_iff.1 h
    obtain ⟨name, hname, h⟩ := bind_eq_ok_iff.1 h
    obtain ⟨⟨record', seen', mid⟩, hmember, h⟩ := bind_eq_ok_iff.1 h
    have hbefore := spaceAt_of_skipSpace_eq hinner
    have hstring := readPieces?_eq_some_iff.1 (grammatical_eq_ok_iff.1 hpieces)
    have htext := grammatical_eq_ok_iff.1 hname
    obtain ⟨hlast, hresult⟩ | ⟨more, hmore, hothers⟩ := readOn_eq_ok_iff.1 h
    · obtain ⟨colon, v, hcolon, item, hstep⟩ :=
        (exists_readMember_iff layout (by simp [EndsValue])).1 ⟨mid, hmember, hlast⟩
      exact ⟨pieces, colon, name, v, seen', record', ⟨inner, close, hbefore, hstring, hcolon⟩, htext, hstep,
        .inl ⟨item, hresult⟩⟩
    · obtain ⟨colon, v, hcolon, item, hstep⟩ :=
        (exists_readMember_iff layout (by simp [EndsValue])).1 ⟨mid, hmember, hmore⟩
      exact ⟨pieces, colon, name, v, seen', record', ⟨inner, close, hbefore, hstring, hcolon⟩, htext, hstep,
        .inr ⟨more, item, hothers⟩⟩
  · rintro ⟨pieces, colon, name, v, seen', record', ⟨inner, close, hopen, hstring, hcolon⟩, htext, hstep, hafter⟩
    have hpieces := grammatical_eq_ok_iff.2 (readPieces?_eq_some_iff.2 hstring)
    have hname := grammatical_eq_ok_iff.2 htext
    rw [readMembersWithin_succ _ _ (hopen.skipSpace_of_cons (by decide))]
    obtain ⟨item, hresult⟩ | ⟨more, item, hothers⟩ := hafter
    · obtain ⟨mid, hmember, hlast⟩ :=
        (exists_readMember_iff layout (by simp [EndsValue])).2 ⟨colon, v, hcolon, item, hstep⟩
      exact bind_eq_ok_iff.2 ⟨_, hpieces, bind_eq_ok_iff.2 ⟨_, hname, bind_eq_ok_iff.2
        ⟨_, hmember, readOn_eq_ok_iff.2 (.inl ⟨hlast, hresult⟩)⟩⟩⟩
    · obtain ⟨mid, hmember, hmore⟩ :=
        (exists_readMember_iff layout (by simp [EndsValue])).2 ⟨colon, v, hcolon, item, hstep⟩
      exact bind_eq_ok_iff.2 ⟨_, hpieces, bind_eq_ok_iff.2 ⟨_, hname, bind_eq_ok_iff.2
        ⟨_, hmember, readOn_eq_ok_iff.2 (.inr ⟨more, hmore, hothers⟩)⟩⟩⟩

/-- Members are taken one after the other; there are fewer of them than characters. -/
private theorem readMembersWithin_eq_ok_iff (layout : Layout ρ) {fuel : Nat} (hfuel : cs.length ≤ fuel) :
    readMembersWithin (layout.slots.map Slot.field) fuel seen record cs = .ok (result, rest) ↔
      ∃ raws members, MembersAt cs raws rest ∧ List.Forall₂ IsNamed raws members ∧
        Takes layout.slots seen record members result := by
  induction fuel generalizing cs seen record with
  | zero =>
    constructor
    · intro h
      simp [readMembersWithin] at h
    · rintro ⟨raws, members, hraws, -⟩
      have hlt := hraws.length_lt
      omega
  | succ fuel ih =>
    have hshorter : ∀ {pieces : List Piece} {colon more : List Char} {v : Raw}, NameAt cs pieces colon →
        ElementAt colon v (',' :: more) → more.length ≤ fuel := by
      intro pieces colon more v hname item
      have hcolon := hname.length_lt
      have hmore := item.length_lt
      rw [List.length_cons] at hmore
      omega
    rw [readMembersWithin_succ_eq_ok_iff]
    constructor
    · rintro ⟨pieces, colon, name, v, seen', record', hname, htext, hstep, ⟨item, rfl⟩ | ⟨more, item, hothers⟩⟩
      · exact ⟨_, [(name, v)], .last hname item, .cons ⟨htext, rfl⟩ .nil, .cons hstep .nil⟩
      · obtain ⟨raws, members, hraws, hnamed, htakes⟩ := (ih (hshorter hname item)).1 hothers
        exact ⟨_, (name, v) :: members, .next hname item hraws, .cons ⟨htext, rfl⟩ hnamed, .cons hstep htakes⟩
    · rintro ⟨raws, members, hraws, hnamed, htakes⟩
      cases hraws with
      | last hname item =>
        obtain ⟨⟨name, v⟩, members, ⟨htext, rfl⟩, hnone, rfl⟩ := List.forall₂_cons_left_iff.1 hnamed
        obtain rfl := List.forall₂_nil_left_iff.1 hnone
        obtain _ | ⟨hstep, hend⟩ := htakes
        cases hend
        exact ⟨_, _, name, _, _, _, hname, htext, hstep, .inl ⟨item, rfl⟩⟩
      | next hname item hothers =>
        obtain ⟨⟨name, v⟩, members, ⟨htext, rfl⟩, hmore, rfl⟩ := List.forall₂_cons_left_iff.1 hnamed
        obtain _ | ⟨hstep, htakes⟩ := htakes
        have hread := (ih (hshorter hname item)).2 ⟨_, _, hothers, hmore, htakes⟩
        exact ⟨_, _, name, _, _, _, hname, htext, hstep, .inr ⟨_, item, hread⟩⟩

/-! ### Arrays -/

private theorem readElements_cons_eq_ok_iff (slot : Slot ρ) (slots : List (Slot ρ)) :
    readElements ((slot :: slots).map Slot.field) record cs = .ok (result, rest) ↔
      ∃ v value, slot.form v value ∧ ((ElementAt cs v (']' :: rest) ∧ slot.set value record = result) ∨
        ∃ more, ElementAt cs v (',' :: more) ∧ skipSpace more ≠ [] ∧ (∀ after, skipSpace more ≠ ']' :: after) ∧
          readElements (slots.map Slot.field) (slot.set value record) (skipSpace more) = .ok (result, rest)) := by
  rw [List.map_cons, readElements]
  constructor
  · intro h
    obtain ⟨⟨change, mid⟩, hchange, h⟩ := bind_eq_ok_iff.1 h
    obtain ⟨after, hafter, h⟩ := bind_eq_ok_iff.1 h
    obtain ⟨value, hvalue, rfl⟩ := Slot.field_read_eq_ok_iff.1 hchange
    cases after with
    | closed last =>
      obtain ⟨rfl, rfl⟩ := Prod.mk.inj (Except.ok.inj h)
      obtain ⟨v, item, hform⟩ := (Reads.closed_iff slot.reads).1 ⟨mid, hvalue, hafter⟩
      exact ⟨v, value, hform, .inl ⟨item, rfl⟩⟩
    | another next =>
      obtain ⟨v, more, item, hform, rfl, hnext⟩ := (Reads.another_iff slot.reads).1 ⟨mid, hvalue, hafter⟩
      exact ⟨v, value, hform, .inr ⟨more, item, hnext.1, hnext.2, h⟩⟩
  · rintro ⟨v, value, hform, ⟨item, rfl⟩ | ⟨more, item, hempty, hclose, h⟩⟩
    · obtain ⟨mid, hvalue, hafter⟩ := (Reads.closed_iff slot.reads).2 ⟨v, item, hform⟩
      exact bind_eq_ok_iff.2 ⟨_, Slot.field_read_eq_ok_iff.2 ⟨value, hvalue, rfl⟩, bind_eq_ok_iff.2 ⟨_, hafter, rfl⟩⟩
    · obtain ⟨mid, hvalue, hafter⟩ := (Reads.another_iff slot.reads).2 ⟨v, more, item, hform, rfl, hempty, hclose⟩
      exact bind_eq_ok_iff.2 ⟨_, Slot.field_read_eq_ok_iff.2 ⟨value, hvalue, rfl⟩, bind_eq_ok_iff.2 ⟨_, hafter, h⟩⟩

/-- The values of an array go to the fields in their order. -/
private theorem readElements_eq_ok_iff (layout : Layout ρ) {slots : List (Slot ρ)}
    (hslots : ∀ slot ∈ slots, slot ∈ layout.slots) (hnodup : (slots.map Slot.name).Nodup)
    (hseen : ∀ slot ∈ slots, slot.name ∉ seen) :
    readElements (slots.map Slot.field) record cs = .ok (result, rest) ↔
      ∃ items, ItemsAt cs items rest ∧ items.length ≤ slots.length ∧
        Takes layout.slots seen record ((slots.map Slot.name).zip items) result := by
  induction slots generalizing cs seen record with
  | nil =>
    constructor
    · intro h
      simp [readElements] at h
    · rintro ⟨items, hitems, hlength, -⟩
      cases hitems <;> simp at hlength
  | cons slot slots ih =>
    obtain ⟨hfresh, hnodup⟩ := List.nodup_cons.1 hnodup
    have hslot := hslots slot List.mem_cons_self
    have hunseen := hseen slot List.mem_cons_self
    have hslots' : ∀ other ∈ slots, other ∈ layout.slots :=
      fun other hother => hslots other (List.mem_cons_of_mem _ hother)
    have hseen' : ∀ other ∈ slots, other.name ∉ slot.name :: seen := by
      intro other hother hmem
      rcases List.mem_cons.1 hmem with heq | hmem
      · exact hfresh (heq ▸ List.mem_map_of_mem hother)
      · exact hseen other (List.mem_cons_of_mem _ hother) hmem
    rw [readElements_cons_eq_ok_iff]
    constructor
    · rintro ⟨v, value, hform, ⟨item, rfl⟩ | ⟨more, item, -, -, h⟩⟩
      · refine ⟨[v], .last item, by simp, ?_⟩
        rw [List.map_cons, List.zip_cons_cons, List.zip_nil_right]
        exact .cons (.known hslot hunseen hform) .nil
      · obtain ⟨items, hitems, hlength, htakes⟩ := (ih hslots' hnodup hseen').1 h
        exact ⟨v :: items, .next item (ItemsAt.skipSpace_iff.1 hitems), Nat.succ_le_succ hlength,
          .cons (.known hslot hunseen hform) htakes⟩
    · rintro ⟨items, hitems, hlength, htakes⟩
      cases hitems with
      | last item =>
        rw [List.map_cons, List.zip_cons_cons, List.zip_nil_right] at htakes
        obtain _ | ⟨hstep, hend⟩ := htakes
        obtain ⟨rfl, value, hform, rfl⟩ := hstep.of_name_eq layout hslot rfl
        cases hend
        exact ⟨_, value, hform, .inl ⟨item, rfl⟩⟩
      | next item hothers =>
        obtain _ | ⟨hstep, htakes⟩ := htakes
        obtain ⟨rfl, value, hform, rfl⟩ := hstep.of_name_eq layout hslot rfl
        have hmore := (ih hslots' hnodup hseen').2
          ⟨_, ItemsAt.skipSpace_iff.2 hothers, Nat.le_of_succ_le_succ hlength, htakes⟩
        exact ⟨_, value, hform, .inr ⟨_, item, hothers.skipSpace_ne_nil, hothers.skipSpace_ne, hmore⟩⟩

/-! ### Records -/

namespace Layout

/-- The names of the fields. -/
def names (layout : Layout ρ) : List String :=
  layout.slots.map Slot.name

/-- A record as it is written: what is left out is as in the defaults. -/
def form (layout : Layout ρ) (defaults : ρ) (raw : Raw) (record : ρ) : Prop :=
  ∃ members, raw.IsRecord layout.names members ∧
    ∀ slot ∈ layout.slots, slot.Settles defaults record (valuesOf slot.name members)

private theorem takes_nil_iff (layout : Layout ρ) : Takes layout.slots [] record members result ↔
    ∀ slot ∈ layout.slots, slot.Settles record result (valuesOf slot.name members) := by
  simp [takes_iff, Slot.Needs]

private theorem readRecord_brace_iff (layout : Layout ρ) {expected : String} {inner : List Char}
    (hinner : skipSpace cs = '\x7b' :: inner) :
    readRecord expected (layout.slots.map Slot.field) record cs = .ok (result, rest) ↔
      ∃ raws members, ValueAt (skipSpace cs) (.object raws) rest ∧ List.Forall₂ IsNamed raws members ∧
        Takes layout.slots [] record members result := by
  unfold readRecord
  rw [hinner]
  constructor
  · intro h
    simp only at h
    split at h
    · rename_i after hafter
      obtain ⟨rfl, rfl⟩ := Prod.mk.inj (Except.ok.inj h)
      exact ⟨[], [], .noMembers (spaceAt_of_skipSpace_eq hafter), .nil, .nil⟩
    · obtain ⟨raws, members, hraws, hnamed, htakes⟩ := (readMembersWithin_eq_ok_iff layout (le_refl _)).1 h
      exact ⟨raws, members, .object (MembersAt.skipSpace_iff.1 hraws), hnamed, htakes⟩
  · rintro ⟨raws, members, hvalue, hnamed, htakes⟩
    obtain ⟨_, heq, ⟨rfl, hclose⟩ | hraws⟩ := valueAt_object_iff.1 hvalue <;> obtain rfl := (List.cons.inj heq).2
    · obtain rfl := List.forall₂_nil_left_iff.1 hnamed
      cases htakes
      simp only
      rw [hclose.skipSpace_of_cons (by decide)]
      rfl
    · simp only
      split
      · rename_i after hafter
        exact absurd hafter (hraws.skipSpace_ne after)
      · exact (readMembersWithin_eq_ok_iff layout (le_refl _)).2
          ⟨raws, members, MembersAt.skipSpace_iff.2 hraws, hnamed, htakes⟩

private theorem readRecord_bracket_iff (layout : Layout ρ) {expected : String} {inner : List Char}
    (hinner : skipSpace cs = '[' :: inner) :
    readRecord expected (layout.slots.map Slot.field) record cs = .ok (result, rest) ↔
      ∃ items, ValueAt (skipSpace cs) (.array items) rest ∧ items.length ≤ layout.names.length ∧
        Takes layout.slots [] record (layout.names.zip items) result := by
  unfold readRecord names
  rw [hinner, List.length_map]
  constructor
  · intro h
    simp only at h
    split at h
    · rename_i after hafter
      obtain ⟨rfl, rfl⟩ := Prod.mk.inj (Except.ok.inj h)
      refine ⟨[], .noItems (spaceAt_of_skipSpace_eq hafter), Nat.zero_le _, ?_⟩
      rw [List.zip_nil_right]
      exact .nil
    · obtain ⟨items, hitems, hlength, htakes⟩ :=
        (readElements_eq_ok_iff layout (fun _ => id) layout.nodup fun _ _ => List.not_mem_nil).1 h
      exact ⟨items, .array (ItemsAt.skipSpace_iff.1 hitems), hlength, htakes⟩
  · rintro ⟨items, hvalue, hlength, htakes⟩
    obtain ⟨_, heq, ⟨rfl, hclose⟩ | hitems⟩ := valueAt_array_iff.1 hvalue <;> obtain rfl := (List.cons.inj heq).2
    · rw [List.zip_nil_right] at htakes
      cases htakes
      simp only
      rw [hclose.skipSpace_of_cons (by decide)]
      rfl
    · simp only
      split
      · rename_i after hafter
        exact absurd hafter (hitems.skipSpace_ne after)
      · exact (readElements_eq_ok_iff layout (fun _ => id) layout.nodup fun _ _ => List.not_mem_nil).2
          ⟨items, ItemsAt.skipSpace_iff.2 hitems, hlength, htakes⟩

/-- Records are read in both spellings, whatever the order of the members. -/
theorem reads_record (layout : Layout ρ) (expected : String) (defaults : ρ) :
    Reads (readRecord expected (layout.slots.map Slot.field) defaults) (layout.form defaults) := by
  intro cs record rest
  constructor
  · intro h
    have hopen : (∃ inner, skipSpace cs = '\x7b' :: inner) ∨ ∃ inner, skipSpace cs = '[' :: inner := by
      unfold readRecord at h
      split at h
      · exact .inl ⟨_, ‹_›⟩
      · exact .inr ⟨_, ‹_›⟩
      · exact absurd h wrongType_ne_ok
    refine ⟨skipSpace cs, ?_⟩
    obtain ⟨inner, hinner⟩ | ⟨inner, hinner⟩ := hopen
    · obtain ⟨raws, members, hvalue, hnamed, htakes⟩ := (readRecord_brace_iff layout hinner).1 h
      exact ⟨_, spaceAt_skipSpace cs, hvalue, members, .object hnamed, (takes_nil_iff layout).1 htakes⟩
    · obtain ⟨items, hvalue, hlength, htakes⟩ := (readRecord_bracket_iff layout hinner).1 h
      exact ⟨_, spaceAt_skipSpace cs, hvalue, _, .array hlength, (takes_nil_iff layout).1 htakes⟩
  · rintro ⟨start, raw, hspace, hvalue, members, hrecord, hsettles⟩
    have htakes := (takes_nil_iff layout).2 hsettles
    cases hrecord with
    | object hnamed =>
      obtain ⟨inner, rfl, -⟩ := valueAt_object_iff.1 hvalue
      have hinner := hspace.skipSpace_of_cons (by decide)
      exact (readRecord_brace_iff layout hinner).2 ⟨_, members, hinner ▸ hvalue, hnamed, htakes⟩
    | array hlength =>
      obtain ⟨inner, rfl, -⟩ := valueAt_array_iff.1 hvalue
      have hinner := hspace.skipSpace_of_cons (by decide)
      exact (readRecord_bracket_iff layout hinner).2 ⟨_, hinner ▸ hvalue, hlength, htakes⟩

end Layout

end Settings

end PageBindings
