import PageBindings.Proofs.Settings.Record
import PageBindings.Settings.Reader

/-!
# Settings that name some fields only

A choice gives values for some of the fields (`Settings.Choice`), which replace the defaults.  A text that is a
choice, as an object or an array, is read as the defaults with the chosen fields replaced, and no other text is read
at all (`Settings.parse_eq_ok_iff`).
-/

namespace PageBindings

open Json

/-! ### The fields and their places -/

namespace Settings

/-- A field that holds a string. -/
private def stringSlot {ρ : Type} (name : String) (get : ρ → String) (set : String → ρ → ρ)
    (get_set : ∀ value record, get (set value record) = value) : Slot ρ where
  Value := String
  name := name
  form := Raw.Spells
  read := readString
  get := get
  set := set
  reads := reads_string
  get_set := get_set

end Settings

open Settings

namespace Vocabulary

/-- The names of the fields, in their order of declaration. -/
def fieldNames : List String :=
  ["events", "viewId", "viewName", "viewType"]

private def layout : Layout Vocabulary where
  slots :=
    [ stringSlot "events" Vocabulary.events (fun value names => { names with events := value }) fun _ _ => rfl,
      stringSlot "viewId" Vocabulary.viewId (fun value names => { names with viewId := value }) fun _ _ => rfl,
      stringSlot "viewName" Vocabulary.viewName (fun value names => { names with viewName := value }) fun _ _ => rfl,
      stringSlot "viewType" Vocabulary.viewType (fun value names => { names with viewType := value }) fun _ _ => rfl ]
  nodup := by decide
  get_set_of_ne {s t} hs ht h value record := by
    simp only [List.mem_cons, List.not_mem_nil, or_false] at hs ht
    rcases hs with rfl | rfl | rfl | rfl <;> rcases ht with rfl | rfl | rfl | rfl <;>
      first
      | rfl
      | exact absurd rfl h
  ext {record record'} h := by
    simp only [List.forall_mem_cons, stringSlot] at h
    obtain ⟨hevents, hviewId, hviewName, hviewType, -⟩ := h
    cases record
    cases record'
    exact (mk.injEq ..).mpr ⟨hevents, hviewId, hviewName, hviewType⟩

private theorem reads : Reads read (layout.form {}) :=
  layout.reads_record "struct AttributeNames" {}

end Vocabulary

namespace Settings

/-- The names of the fields, in their order of declaration. -/
def fieldNames : List String :=
  ["attributes", "paramsKey", "clientIdHeader", "rootSelector", "streamUrl", "heartbeat", "endMessage",
    "preventDefaultOn"]

private def layout : Layout Settings where
  slots :=
    [ { Value := Vocabulary, name := "attributes", form := Vocabulary.layout.form {}, read := Vocabulary.read
        get := Settings.vocabulary, set := fun value settings => { settings with vocabulary := value }
        reads := Vocabulary.reads, get_set := fun _ _ => rfl },
      stringSlot "paramsKey" Settings.parameterKey (fun value settings => { settings with parameterKey := value })
        fun _ _ => rfl,
      stringSlot "clientIdHeader" Settings.idHeader (fun value settings => { settings with idHeader := value })
        fun _ _ => rfl,
      stringSlot "rootSelector" Settings.rootSelector (fun value settings => { settings with rootSelector := value })
        fun _ _ => rfl,
      { Value := Option String, name := "streamUrl", form := Raw.SpellsOptional, read := readOptionalString
        get := Settings.streamUrl, set := fun value settings => { settings with streamUrl := value }
        reads := reads_optionalString, get_set := fun _ _ => rfl },
      stringSlot "heartbeat" Settings.heartbeat (fun value settings => { settings with heartbeat := value })
        fun _ _ => rfl,
      stringSlot "endMessage" Settings.endWord (fun value settings => { settings with endWord := value })
        fun _ _ => rfl,
      { Value := List String, name := "preventDefaultOn", form := Raw.SpellsAll, read := readStrings
        get := Settings.preventedTypes, set := fun value settings => { settings with preventedTypes := value }
        reads := reads_strings, get_set := fun _ _ => rfl } ]
  nodup := by decide
  get_set_of_ne {s t} hs ht h value record := by
    simp only [List.mem_cons, List.not_mem_nil, or_false] at hs ht
    rcases hs with rfl | rfl | rfl | rfl | rfl | rfl | rfl | rfl <;>
      rcases ht with rfl | rfl | rfl | rfl | rfl | rfl | rfl | rfl <;>
        first
        | rfl
        | exact absurd rfl h
  ext {record record'} h := by
    simp only [List.forall_mem_cons, stringSlot] at h
    obtain ⟨hvocabulary, hparameterKey, hidHeader, hrootSelector, hstreamUrl, hheartbeat, hendWord, hprevented,
      -⟩ := h
    cases record
    cases record'
    exact (mk.injEq ..).mpr
      ⟨hvocabulary, hparameterKey, hidHeader, hrootSelector, hstreamUrl, hheartbeat, hendWord, hprevented⟩

private theorem reads : Reads (readRecord "struct Config" fields {}) (layout.form {}) :=
  layout.reads_record "struct Config" {}

private theorem parse_eq_ok_iff_form {text : String} {settings : Settings} :
    parse text = .ok settings ↔ ∃ raw, IsText text.toList raw ∧ layout.form {} raw settings := by
  unfold parse
  constructor
  · intro h
    obtain ⟨⟨read, rest⟩, hread, h⟩ := bind_eq_ok_iff.1 h
    simp only at h
    split at h
    · rename_i hempty
      obtain rfl := Except.ok.inj h
      obtain ⟨inner, raw, before, hvalue, hform⟩ := reads.1 hread
      exact ⟨raw, .intro before hvalue (spaceAt_of_skipSpace_eq (List.isEmpty_iff.1 hempty)), hform⟩
    · simp at h
  · rintro ⟨raw, ⟨before, hvalue, hspace⟩, hform⟩
    refine bind_eq_ok_iff.2 ⟨_, reads.2 ⟨_, raw, before, hvalue, hform⟩, ?_⟩
    have hempty : (skipSpace _).isEmpty = true := List.isEmpty_iff.2 hspace.skipSpace_eq
    simp only [hempty]
    rfl

end Settings

/-! ### Choices -/

namespace Settings

/-- What is written for a field: nothing, or one value of its form. -/
def Selects {α : Type} (form : Raw → α → Prop) : Option α → List Raw → Prop
  | none, values => values = []
  | some a, values => ∃ v, values = [v] ∧ form v a

variable {α : Type} {form : Raw → α → Prop} {chosen : Option α} {values : List Raw} {text : String} {raw : Raw}

/-- A field is settled by what is selected for it. -/
private theorem Slot.settles_iff {ρ : Type} {slot : Slot ρ} {before after : ρ} : slot.Settles before after values ↔
    ∃ chosen, Selects slot.form chosen values ∧ slot.get after = chosen.getD (slot.get before) := by
  constructor
  · rintro (⟨hvalues, hget⟩ | ⟨v, hvalues, hform⟩)
    · exact ⟨none, hvalues, hget⟩
    · exact ⟨some (slot.get after), ⟨v, hvalues, hform⟩, rfl⟩
  · rintro ⟨_ | value, hselects, hget⟩
    · exact .inl ⟨hselects, hget⟩
    · obtain ⟨v, hvalues, hform⟩ := hselects
      exact .inr ⟨v, hvalues, hget ▸ hform⟩

end Settings

namespace Vocabulary

/-- Values for some of the attribute names. -/
structure Choice where
  events : Option String := none
  viewId : Option String := none
  viewName : Option String := none
  viewType : Option String := none

namespace Choice

/-- The default names, with the chosen ones replaced. -/
def applied (choice : Choice) : Vocabulary where
  events := choice.events.getD (Vocabulary.events {})
  viewId := choice.viewId.getD (Vocabulary.viewId {})
  viewName := choice.viewName.getD (Vocabulary.viewName {})
  viewType := choice.viewType.getD (Vocabulary.viewType {})

/-- The members are those of the choice, in any order and among others. -/
structure IsMadeBy (choice : Choice) (members : List (String × Raw)) : Prop where
  events : Selects Raw.Spells choice.events (valuesOf "events" members)
  viewId : Selects Raw.Spells choice.viewId (valuesOf "viewId" members)
  viewName : Selects Raw.Spells choice.viewName (valuesOf "viewName" members)
  viewType : Selects Raw.Spells choice.viewType (valuesOf "viewType" members)

/-- A choice as it is written, as an object or an array. -/
def WrittenAs (choice : Choice) (raw : Raw) : Prop :=
  ∃ members, raw.IsRecord fieldNames members ∧ choice.IsMadeBy members

end Choice

/-- What is read for the names is what a choice makes of the defaults. -/
private theorem form_iff {raw : Raw} {names : Vocabulary} :
    layout.form {} raw names ↔ ∃ choice : Choice, choice.WrittenAs raw ∧ names = choice.applied := by
  constructor
  · rintro ⟨members, hrecord, hsettles⟩
    simp only [layout, List.forall_mem_cons] at hsettles
    obtain ⟨hevents, hviewId, hviewName, hviewType, -⟩ := hsettles
    obtain ⟨events, hevents, hgetEvents⟩ := Slot.settles_iff.1 hevents
    obtain ⟨viewId, hviewId, hgetViewId⟩ := Slot.settles_iff.1 hviewId
    obtain ⟨viewName, hviewName, hgetViewName⟩ := Slot.settles_iff.1 hviewName
    obtain ⟨viewType, hviewType, hgetViewType⟩ := Slot.settles_iff.1 hviewType
    refine ⟨⟨events, viewId, viewName, viewType⟩, ⟨members, hrecord, ⟨hevents, hviewId, hviewName, hviewType⟩⟩, ?_⟩
    cases names
    exact (mk.injEq ..).mpr ⟨hgetEvents, hgetViewId, hgetViewName, hgetViewType⟩
  · rintro ⟨choice, ⟨members, hrecord, hmade⟩, rfl⟩
    refine ⟨members, hrecord, ?_⟩
    simp only [layout, List.forall_mem_cons]
    exact ⟨Slot.settles_iff.2 ⟨_, hmade.events, rfl⟩, Slot.settles_iff.2 ⟨_, hmade.viewId, rfl⟩,
      Slot.settles_iff.2 ⟨_, hmade.viewName, rfl⟩, Slot.settles_iff.2 ⟨_, hmade.viewType, rfl⟩, by simp⟩

end Vocabulary

namespace Settings

/-- Values for some of the settings. -/
structure Choice where
  vocabulary : Option Vocabulary.Choice := none
  parameterKey : Option String := none
  idHeader : Option String := none
  rootSelector : Option String := none
  /-- That there is no push channel can be chosen too. -/
  streamUrl : Option (Option String) := none
  heartbeat : Option String := none
  endWord : Option String := none
  preventedTypes : Option (List String) := none

namespace Choice

/-- The default settings, with the chosen ones replaced. -/
def applied (choice : Choice) : Settings where
  vocabulary := (choice.vocabulary.map Vocabulary.Choice.applied).getD (Settings.vocabulary {})
  parameterKey := choice.parameterKey.getD (Settings.parameterKey {})
  idHeader := choice.idHeader.getD (Settings.idHeader {})
  rootSelector := choice.rootSelector.getD (Settings.rootSelector {})
  streamUrl := choice.streamUrl.getD (Settings.streamUrl {})
  heartbeat := choice.heartbeat.getD (Settings.heartbeat {})
  endWord := choice.endWord.getD (Settings.endWord {})
  preventedTypes := choice.preventedTypes.getD (Settings.preventedTypes {})

/-- The members are those of the choice, in any order and among others. -/
structure IsMadeBy (choice : Choice) (members : List (String × Raw)) : Prop where
  vocabulary : Selects (fun raw names => names.WrittenAs raw) choice.vocabulary (valuesOf "attributes" members)
  parameterKey : Selects Raw.Spells choice.parameterKey (valuesOf "paramsKey" members)
  idHeader : Selects Raw.Spells choice.idHeader (valuesOf "clientIdHeader" members)
  rootSelector : Selects Raw.Spells choice.rootSelector (valuesOf "rootSelector" members)
  streamUrl : Selects Raw.SpellsOptional choice.streamUrl (valuesOf "streamUrl" members)
  heartbeat : Selects Raw.Spells choice.heartbeat (valuesOf "heartbeat" members)
  endWord : Selects Raw.Spells choice.endWord (valuesOf "endMessage" members)
  preventedTypes : Selects Raw.SpellsAll choice.preventedTypes (valuesOf "preventDefaultOn" members)

/-- A choice as it is written, as an object or an array. -/
def WrittenAs (choice : Choice) (raw : Raw) : Prop :=
  ∃ members, raw.IsRecord fieldNames members ∧ choice.IsMadeBy members

end Choice

/-- Attribute names are selected by selecting a choice of them. -/
private theorem exists_choice_of_selects {chosen : Option Vocabulary} {values : List Raw}
    (h : Selects (Vocabulary.layout.form {}) chosen values) : ∃ choice : Option Vocabulary.Choice,
      Selects (fun raw names => names.WrittenAs raw) choice values ∧
        chosen = choice.map Vocabulary.Choice.applied := by
  cases chosen with
  | none => exact ⟨none, h, rfl⟩
  | some names =>
    obtain ⟨v, hvalues, hform⟩ := h
    obtain ⟨choice, hwritten, rfl⟩ := Vocabulary.form_iff.1 hform
    exact ⟨some choice, ⟨v, hvalues, hwritten⟩, rfl⟩

private theorem selects_of_choice {choice : Option Vocabulary.Choice} {values : List Raw}
    (h : Selects (fun raw names => names.WrittenAs raw) choice values) :
    Selects (Vocabulary.layout.form {}) (choice.map Vocabulary.Choice.applied) values := by
  cases choice with
  | none => exact h
  | some choice =>
    obtain ⟨v, hvalues, hwritten⟩ := h
    exact ⟨v, hvalues, Vocabulary.form_iff.2 ⟨choice, hwritten, rfl⟩⟩

private theorem form_iff {raw : Raw} {settings : Settings} :
    layout.form {} raw settings ↔ ∃ choice : Choice, choice.WrittenAs raw ∧ settings = choice.applied := by
  constructor
  · rintro ⟨members, hrecord, hsettles⟩
    simp only [layout, List.forall_mem_cons] at hsettles
    obtain ⟨hvocabulary, hparameterKey, hidHeader, hrootSelector, hstreamUrl, hheartbeat, hendWord, hprevented, -⟩ :=
      hsettles
    obtain ⟨names, hnames, hgetVocabulary⟩ := Slot.settles_iff.1 hvocabulary
    obtain ⟨vocabulary, hvocabulary, rfl⟩ := exists_choice_of_selects hnames
    obtain ⟨parameterKey, hparameterKey, hgetParameterKey⟩ := Slot.settles_iff.1 hparameterKey
    obtain ⟨idHeader, hidHeader, hgetIdHeader⟩ := Slot.settles_iff.1 hidHeader
    obtain ⟨rootSelector, hrootSelector, hgetRootSelector⟩ := Slot.settles_iff.1 hrootSelector
    obtain ⟨streamUrl, hstreamUrl, hgetStreamUrl⟩ := Slot.settles_iff.1 hstreamUrl
    obtain ⟨heartbeat, hheartbeat, hgetHeartbeat⟩ := Slot.settles_iff.1 hheartbeat
    obtain ⟨endWord, hendWord, hgetEndWord⟩ := Slot.settles_iff.1 hendWord
    obtain ⟨prevented, hprevented, hgetPrevented⟩ := Slot.settles_iff.1 hprevented
    refine ⟨⟨vocabulary, parameterKey, idHeader, rootSelector, streamUrl, heartbeat, endWord, prevented⟩,
      ⟨members, hrecord, ⟨hvocabulary, hparameterKey, hidHeader, hrootSelector, hstreamUrl, hheartbeat, hendWord,
        hprevented⟩⟩, ?_⟩
    cases settings
    exact (mk.injEq ..).mpr ⟨hgetVocabulary, hgetParameterKey, hgetIdHeader, hgetRootSelector, hgetStreamUrl,
      hgetHeartbeat, hgetEndWord, hgetPrevented⟩
  · rintro ⟨choice, ⟨members, hrecord, hmade⟩, rfl⟩
    refine ⟨members, hrecord, ?_⟩
    simp only [layout, List.forall_mem_cons]
    exact ⟨Slot.settles_iff.2 ⟨_, selects_of_choice hmade.vocabulary, rfl⟩,
      Slot.settles_iff.2 ⟨_, hmade.parameterKey, rfl⟩, Slot.settles_iff.2 ⟨_, hmade.idHeader, rfl⟩,
      Slot.settles_iff.2 ⟨_, hmade.rootSelector, rfl⟩, Slot.settles_iff.2 ⟨_, hmade.streamUrl, rfl⟩,
      Slot.settles_iff.2 ⟨_, hmade.heartbeat, rfl⟩, Slot.settles_iff.2 ⟨_, hmade.endWord, rfl⟩,
      Slot.settles_iff.2 ⟨_, hmade.preventedTypes, rfl⟩, by simp⟩

/-- The texts that are read, and what they are read as. -/
theorem parse_eq_ok_iff {text : String} {settings : Settings} : parse text = .ok settings ↔
    ∃ raw, IsText text.toList raw ∧ ∃ choice : Choice, choice.WrittenAs raw ∧ settings = choice.applied := by
  rw [parse_eq_ok_iff_form]
  simp only [form_iff]

end Settings

end PageBindings
