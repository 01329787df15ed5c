import PageBindings.Proofs.Settings.Choice

/-!
# Partial settings override the defaults and nothing else

A text that chooses some of the settings is read as the defaults with these replaced; an array of values is read like
an object with the values under the first names, and a field that occurs twice or has a value of another type makes
reading fail (`Settings.parse_as_written`).
-/

namespace PageBindings

namespace Json

variable {names : List String} {name : String} {raw : Raw} {raws : List (List Piece × Raw)} {items : List Raw}
  {members members' : List (String × Raw)}

/-! ### Members -/

private theorem rightUnique_isNamed : Relator.RightUnique IsNamed :=
  fun _ _ _ h h' => Prod.ext (Option.some.inj (h.1.symm.trans h'.1)) (h.2.symm.trans h'.2)

theorem Raw.IsRecord.unique (h : raw.IsRecord names members) (h' : raw.IsRecord names members') :
    members = members' := by
  cases h with
  | object hnamed =>
    cases h' with
    | object hnamed' => exact List.right_unique_forall₂' rightUnique_isNamed hnamed hnamed'
  | array hlength =>
    cases h'
    rfl

private theorem valuesOf_eq_nil (h : ∀ m ∈ members, m.1 ≠ name) : valuesOf name members = [] := by
  unfold valuesOf
  rw [List.map_eq_nil_iff, List.filter_eq_nil_iff]
  intro m hm
  simpa using h m hm

/-- Under different names there is one value at most for each. -/
private theorem length_valuesOf_zip_le (hnodup : names.Nodup) (name : String) (items : List Raw) :
    (valuesOf name (names.zip items)).length ≤ 1 := by
  induction names generalizing items with
  | nil => exact Nat.zero_le 1
  | cons first names ih =>
    obtain ⟨hfirst, hnodup⟩ := List.nodup_cons.1 hnodup
    cases items with
    | nil => exact Nat.zero_le 1
    | cons v items =>
      rw [List.zip_cons_cons]
      by_cases heq : first = name
      · have hrest : valuesOf name (names.zip items) = [] :=
          valuesOf_eq_nil fun m hm h => hfirst (heq ▸ h ▸ (List.of_mem_zip hm).1)
        rw [heq, valuesOf_cons_self, hrest]
        exact le_refl 1
      · rw [valuesOf_cons_of_ne heq]
        exact ih hnodup items

/-- The order of members does not matter if no name occurs twice. -/
theorem valuesOf_eq_of_perm_zip (hnodup : names.Nodup) (h : members.Perm (names.zip items)) (name : String) :
    valuesOf name members = valuesOf name (names.zip items) := by
  have hperm : (valuesOf name members).Perm (valuesOf name (names.zip items)) := (h.filter _).map _
  match hvalues : valuesOf name (names.zip items), length_valuesOf_zip_le hnodup name items with
  | [], _ => exact (hvalues ▸ hperm).eq_nil
  | [v], _ => exact List.perm_singleton.1 (hvalues ▸ hperm)

/-! ### Faults -/

/-- A record in which a field occurs twice, or has a value that is not of its type. -/
def Raw.IsFaulty (types : List (String × (Raw → Prop))) (raw : Raw) : Prop :=
  ∃ members, raw.IsRecord (types.map Prod.fst) members ∧ ∃ field ∈ types,
    2 ≤ (valuesOf field.1 members).length ∨ ∃ v ∈ valuesOf field.1 members, ¬ field.2 v

/-- A value is a string. -/
def Raw.IsString (raw : Raw) : Prop :=
  ∃ text, raw.Spells text

theorem not_isFaulty {types : List (String × (Raw → Prop))} (hrecord : raw.IsRecord (types.map Prod.fst) members)
    (h : ∀ field ∈ types, (valuesOf field.1 members).length ≤ 1 ∧ ∀ v ∈ valuesOf field.1 members, field.2 v) :
    ¬ raw.IsFaulty types := by
  rintro ⟨members', hrecord', field, hfield, hfault⟩
  obtain rfl := hrecord.unique hrecord'
  obtain ⟨hlength, htype⟩ := h field hfield
  rcases hfault with htwice | ⟨v, hv, hother⟩
  · omega
  · exact hother (htype v hv)

end Json

open Json

namespace Settings

/-- What is selected is one value at most, and of the type of its form. -/
private theorem Selects.sound {α : Type} {form : Raw → α → Prop} {type : Raw → Prop} {chosen : Option α}
    {values : List Raw} (h : Selects form chosen values) (htype : ∀ {v a}, form v a → type v) :
    values.length ≤ 1 ∧ ∀ v ∈ values, type v := by
  cases chosen with
  | none =>
    obtain rfl : values = [] := h
    exact ⟨Nat.zero_le 1, by simp⟩
  | some a =>
    obtain ⟨v, rfl, hform⟩ := h
    exact ⟨le_refl 1, by simpa using htype hform⟩

end Settings

namespace Vocabulary

/-- The types of the fields. -/
def types : List (String × (Raw → Prop)) :=
  [("events", Raw.IsString), ("viewId", Raw.IsString), ("viewName", Raw.IsString), ("viewType", Raw.IsString)]

/-- A record of attribute names without faults. -/
def IsType (raw : Raw) : Prop :=
  (∃ members, raw.IsRecord fieldNames members) ∧ ¬ raw.IsFaulty types

private theorem Choice.isType {choice : Choice} {raw : Raw} (h : choice.WrittenAs raw) : IsType raw := by
  obtain ⟨members, hrecord, hmade⟩ := h
  refine ⟨⟨members, hrecord⟩, not_isFaulty hrecord ?_⟩
  simp only [types, List.forall_mem_cons]
  exact ⟨hmade.events.sound fun hform => ⟨_, hform⟩, hmade.viewId.sound fun hform => ⟨_, hform⟩,
    hmade.viewName.sound fun hform => ⟨_, hform⟩, hmade.viewType.sound fun hform => ⟨_, hform⟩, by simp⟩

end Vocabulary

namespace Settings

/-- The types of the fields. -/
def types : List (String × (Raw → Prop)) :=
  [ ("attributes", Vocabulary.IsType), ("paramsKey", Raw.IsString), ("clientIdHeader", Raw.IsString),
    ("rootSelector", Raw.IsString), ("streamUrl", fun raw => raw = .null ∨ raw.IsString), ("heartbeat", Raw.IsString),
    ("endMessage", Raw.IsString),
    ("preventDefaultOn", fun raw => ∃ items, raw = .array items ∧ ∀ v ∈ items, v.IsString) ]

private theorem Choice.not_isFaulty {choice : Choice} {raw : Raw} (h : choice.WrittenAs raw) :
    ¬ raw.IsFaulty types := by
  have hoptional : ∀ {v : Raw} {url : Option String}, v.SpellsOptional url → v = .null ∨ v.IsString := by
    intro v url hform
    cases url with
    | none => exact .inl hform
    | some text => exact .inr ⟨text, hform⟩
  have hlist : ∀ {v : Raw} {texts : List String}, v.SpellsAll texts →
      ∃ items, v = .array items ∧ ∀ item ∈ items, item.IsString := by
    rintro v texts ⟨items, rfl, hforms⟩
    refine ⟨items, rfl, ?_⟩
    induction hforms with
    | nil => simp
    | cons hform _ ih => exact List.forall_mem_cons.2 ⟨⟨_, hform⟩, ih⟩
  obtain ⟨members, hrecord, hmade⟩ := h
  refine Json.not_isFaulty hrecord ?_
  simp only [types, List.forall_mem_cons]
  exact ⟨hmade.vocabulary.sound Vocabulary.Choice.isType, hmade.parameterKey.sound fun hform => ⟨_, hform⟩,
    hmade.idHeader.sound fun hform => ⟨_, hform⟩, hmade.rootSelector.sound fun hform => ⟨_, hform⟩,
    hmade.streamUrl.sound hoptional, hmade.heartbeat.sound fun hform => ⟨_, hform⟩,
    hmade.endWord.sound fun hform => ⟨_, hform⟩, hmade.preventedTypes.sound hlist, by simp⟩

/-! ### Partial settings -/

variable {text : String} {raw : Raw} {settings : Settings} {members members' : List (String × Raw)}

/-- A text has one value, so this is the one that is read. -/
private theorem parse_eq_ok_iff_of_isText (h : IsText text.toList raw) : parse text = .ok settings ↔
    ∃ choice : Choice, choice.WrittenAs raw ∧ settings = choice.applied := by
  rw [parse_eq_ok_iff]
  constructor
  · rintro ⟨raw', hraw', hchoice⟩
    exact h.unique hraw' ▸ hchoice
  · exact fun hchoice => ⟨raw, h, hchoice⟩

private theorem Choice.IsMadeBy.congr {choice : Choice} (h : ∀ name, valuesOf name members = valuesOf name members')
    (hmade : choice.IsMadeBy members) : choice.IsMadeBy members' where
  vocabulary := h _ ▸ hmade.vocabulary
  parameterKey := h _ ▸ hmade.parameterKey
  idHeader := h _ ▸ hmade.idHeader
  rootSelector := h _ ▸ hmade.rootSelector
  streamUrl := h _ ▸ hmade.streamUrl
  heartbeat := h _ ▸ hmade.heartbeat
  endWord := h _ ▸ hmade.endWord
  preventedTypes := h _ ▸ hmade.preventedTypes

/-- Both spellings of a record have the same members, so they are the same choices. -/
private theorem writtenAs_congr {raw' : Raw} (hrecord : raw.IsRecord fieldNames members)
    (hrecord' : raw'.IsRecord fieldNames members') (h : ∀ name, valuesOf name members = valuesOf name members')
    (choice : Choice) : choice.WrittenAs raw ↔ choice.WrittenAs raw' := by
  constructor
  · rintro ⟨found, hfound, hmade⟩
    obtain rfl := hrecord.unique hfound
    exact ⟨members', hrecord', hmade.congr h⟩
  · rintro ⟨found, hfound, hmade⟩
    obtain rfl := hrecord'.unique hfound
    exact ⟨members, hrecord, hmade.congr fun name => (h name).symm⟩

/-- How a text that is a value is read. -/
structure ReadAsWritten (text : String) (raw : Raw) : Prop where
  /-- What is chosen replaces the defaults. -/
  chosen (choice : Choice) (h : choice.WrittenAs raw) : parse text = .ok choice.applied
  /-- Nothing else is read. -/
  only {settings : Settings} (h : parse text = .ok settings) :
    ∃ choice : Choice, choice.WrittenAs raw ∧ settings = choice.applied
  /-- An array of values is read like an object that has them under the first names, in any order. -/
  array {items : List Raw} {other : String} {raws : List (List Piece × Raw)} {members : List (String × Raw)}
    (hraw : raw = .array items) (hlength : items.length ≤ fieldNames.length)
    (hother : IsText other.toList (.object raws))
    (hnamed : List.Forall₂ IsNamed raws members) (hmembers : members.Perm (fieldNames.zip items))
    (settings : Settings) :
    parse text = .ok settings ↔ parse other = .ok settings
  /-- A field that occurs twice or is of another type makes reading fail. -/
  faulty (h : raw.IsFaulty types) : ∃ error, parse text = .error error

/-- Partial settings are the defaults with the chosen fields replaced. -/
theorem parse_as_written (h : IsText text.toList raw) : ReadAsWritten text raw where
  chosen choice hwritten := (parse_eq_ok_iff_of_isText h).2 ⟨choice, hwritten, rfl⟩
  only hread := (parse_eq_ok_iff_of_isText h).1 hread
  array hraw hlength hother hnamed hmembers settings := by
    subst hraw
    have hvalues := valuesOf_eq_of_perm_zip (by decide) hmembers
    have hchoices := writtenAs_congr (.array hlength) (.object hnamed) fun name => (hvalues name).symm
    rw [parse_eq_ok_iff_of_isText h, parse_eq_ok_iff_of_isText hother]
    simp only [hchoices]
  faulty hfaulty := by
    cases hread : parse text with
    | error error => exact ⟨error, rfl⟩
    | ok settings =>
      obtain ⟨choice, hwritten, -⟩ := (parse_eq_ok_iff_of_isText h).1 hread
      exact absurd hfaulty (Choice.not_isFaulty hwritten)

/-- Two fields are chosen, one of them an array, with members between them that have no value as numbers or texts. -/
theorem parse_as_written_among_unknown :
    parse "\x7b\"x\":[1e999,\"\\ud800\"],\"streamUrl\": null,\"attributes\":[\"a\"],\"x\":\x7b\x7d\x7d" =
      .ok { vocabulary := { events := "a" }, streamUrl := none } := by
  have hread : Raw.read?
      "\x7b\"x\":[1e999,\"\\ud800\"],\"streamUrl\": null,\"attributes\":[\"a\"],\"x\":\x7b\x7d\x7d".toList =
      some (.object [
        ([.char 'x'], .array [.number ⟨false, ['1'], none, some (false, ['9', '9', '9'])⟩, .string [.unit 0xd800]]),
        ("streamUrl".toList.map .char, .null),
        ("attributes".toList.map .char, .array [.string [.char 'a']]),
        ([.char 'x'], .object [])], []) := by
    simp only [String.reduceToList]
    rfl
  have hnames : Vocabulary.Choice.WrittenAs { events := some "a" } (.array [.string [.char 'a']]) :=
    ⟨_, .array (by decide), ⟨⟨_, rfl, [.char 'a'], rfl, rfl⟩, rfl, rfl, rfl⟩⟩
  refine (parse_as_written (isText_iff_read?.2 ⟨[], hread, rfl⟩)).chosen
    { vocabulary := some { events := some "a" }, streamUrl := some none }
    ⟨[("x", _), ("streamUrl", _), ("attributes", _), ("x", _)],
      .object (.cons ⟨?_, rfl⟩ (.cons ⟨?_, rfl⟩ (.cons ⟨?_, rfl⟩ (.cons ⟨?_, rfl⟩ .nil)))),
      ⟨⟨_, rfl, hnames⟩, rfl, rfl, rfl, ⟨_, rfl, rfl⟩, rfl, rfl, rfl⟩⟩
  all_goals rfl

end Settings

end PageBindings
