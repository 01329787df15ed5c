import PageBindings.Proofs.Json.Limits
import PageBindings.Proofs.Text.Words
import PageBindings.Push.Message

/-!
# What a message of a push stream is taken for

A message is a heartbeat if it is the word for it but for blanks around it; else it ends the stream if it is the word
for that, or an object whose last member `msg` is that word (`SaysAsObject`); else it is a fragment, blanks included
(`classified`).  How the object is written does not matter.
-/

namespace PageBindings.StreamMessage

variable {settings : Settings} {message text data html : String}

/-- A text is an object that can be read, and the last of its members named `msg` is the message. -/
def SaysAsObject (message text : String) : Prop :=
  ∃ members, Json.IsText text.toList (.object members) ∧ (Json.Raw.object members).depth < 128 ∧
    (Json.Raw.object members).IsReadable ∧ ∃ before name said after, members = before ++ (name, said) :: after ∧
      Json.textOf? name = some "msg" ∧ said.Spells message ∧ ∀ m ∈ after, Json.textOf? m.1 ≠ some "msg"

private theorem isObjectSaying_iff_parse? :
    isObjectSaying message text = true ↔
      ∃ members, Json.parse? text = some (.object members) ∧ Json.member? "msg" members = some (.string message) := by
  unfold isObjectSaying
  constructor
  · intro h
    split at h
    · rename_i members hparse
      split at h
      · rename_i said hsaid
        rw [beq_iff_eq] at h
        exact ⟨members, hparse, h ▸ hsaid⟩
      · exact absurd h Bool.false_ne_true
    · exact absurd h Bool.false_ne_true
  · rintro ⟨members, hparse, hsaid⟩
    rw [hparse]
    simp only
    rw [hsaid]
    exact beq_self_eq_true message

/-- The value of an object is what its text says, whatever its spelling. -/
theorem isObjectSaying_iff : isObjectSaying message text = true ↔ SaysAsObject message text := by
  have hlimit : ∀ {raw : Json.Raw}, (∃ v, Json.ofRaw? Json.nestingLimit raw = some v) ↔
      raw.depth < 128 ∧ raw.IsReadable := by
    intro raw
    rw [Json.exists_ofRaw?_iff, Json.nestingLimit, Nat.lt_succ_iff]
  rw [isObjectSaying_iff_parse?]
  constructor
  · rintro ⟨members, hparse, hsaid⟩
    obtain ⟨raw, htext, hvalue⟩ := Json.parseWithin?_eq_some_iff.1 hparse
    obtain ⟨hdepth, hreadable⟩ := hlimit.1 ⟨_, hvalue⟩
    obtain ⟨raws, written, rfl, hwritten, rfl⟩ := Json.ofRaw?_eq_object_iff.1 hvalue
    obtain ⟨before, name, said, after, rfl, hname, hmessage, hafter⟩ :=
      (Json.member?_sortMembers_eq_some_iff hwritten).1 hsaid
    exact ⟨_, htext, hdepth, hreadable, before, name, said, after, rfl, hname, Json.ofRaw?_eq_string_iff.1 hmessage,
      hafter⟩
  · rintro ⟨members, htext, hdepth, hreadable, hlast⟩
    obtain ⟨before, name, said, after, hmembers, hname, hmessage, hafter⟩ := hlast
    obtain ⟨v, hvalue⟩ := hlimit.2 ⟨hdepth, hreadable⟩
    obtain ⟨written, hwritten, rfl⟩ := Option.map_eq_some_iff.1 hvalue
    refine ⟨_, Json.parseWithin?_eq_some_iff.2 ⟨_, htext, hvalue⟩, ?_⟩
    exact (Json.member?_sortMembers_eq_some_iff hwritten).2 ⟨before, name, said, after, hmembers, hname,
      Json.ofRaw?_eq_string_iff.2 hmessage, hafter⟩

/-! ### The three classes -/

/-- The end of the stream is said by the word alone or by an object. -/
def Ends (settings : Settings) (text : String) : Prop :=
  text = settings.endWord ∨ SaysAsObject settings.endWord text

/-- The same message with other content, which only fragments have. -/
def carrying (data : String) : StreamMessage → StreamMessage
  | .heartbeat => .heartbeat
  | .ending => .ending
  | .fragment _ => .fragment data

private theorem ofData_cases (settings : Settings) (data : String) :
    (Text.trim data = settings.heartbeat ∧ ofData settings data = .heartbeat) ∨
    (Text.trim data ≠ settings.heartbeat ∧ Ends settings (Text.trim data) ∧ ofData settings data = .ending) ∨
    (Text.trim data ≠ settings.heartbeat ∧ ¬ Ends settings (Text.trim data) ∧
      ofData settings data = .fragment data) := by
  unfold ofData Ends
  rw [← isObjectSaying_iff]
  dsimp only
  split
  · rename_i hheartbeat
    exact .inl ⟨hheartbeat, rfl⟩
  · rename_i hheartbeat
    split
    · rename_i hends
      exact .inr (.inl ⟨hheartbeat, hends, rfl⟩)
    · rename_i hends
      exact .inr (.inr ⟨hheartbeat, hends, rfl⟩)

private theorem trim_append {before after : String} (hbefore : ∀ c ∈ before.toList, Text.isBlank c = true)
    (hafter : ∀ c ∈ after.toList, Text.isBlank c = true) (data : String) :
    Text.trim (before ++ data ++ after) = Text.trim data := by
  unfold Text.trim
  rw [String.toList_append, String.toList_append, Text.trimmed_append hbefore hafter]

private theorem ofData_congr {other : String} (h : Text.trim other = Text.trim data) :
    ofData settings other = (ofData settings data).carrying other := by
  unfold ofData
  rw [h]
  dsimp only
  split
  · rfl
  · split <;> rfl

/-- What a message is taken for, which its trimmed text alone decides. -/
structure Classified (settings : Settings) (data : String) : Prop where
  /-- Blanks around a message leave its class alone. -/
  padded {before after : String} (hbefore : ∀ c ∈ before.toList, Text.isBlank c = true)
    (hafter : ∀ c ∈ after.toList, Text.isBlank c = true) :
      ofData settings (before ++ data ++ after) = (ofData settings data).carrying (before ++ data ++ after)
  heartbeat_iff : ofData settings data = .heartbeat ↔ Text.trim data = settings.heartbeat
  ending_iff : ofData settings data = .ending ↔
    Text.trim data ≠ settings.heartbeat ∧ Ends settings (Text.trim data)
  /-- A fragment keeps its blanks. -/
  fragment_iff (html : String) : ofData settings data = .fragment html ↔
    html = data ∧ Text.trim data ≠ settings.heartbeat ∧ ¬ Ends settings (Text.trim data)

/-- Every message is a heartbeat, or else the end of the stream, or else a fragment, as its whole text says. -/
theorem classified (settings : Settings) (data : String) : Classified settings data where
  padded hbefore hafter := ofData_congr (trim_append hbefore hafter data)
  heartbeat_iff := by
    obtain ⟨hheartbeat, h⟩ | ⟨hheartbeat, -, h⟩ | ⟨hheartbeat, -, h⟩ := ofData_cases settings data <;>
      simp [h, hheartbeat]
  ending_iff := by
    obtain ⟨hheartbeat, h⟩ | ⟨hheartbeat, hends, h⟩ | ⟨hheartbeat, hends, h⟩ := ofData_cases settings data <;>
      simp [*]
  fragment_iff html := by
    obtain ⟨hheartbeat, h⟩ | ⟨hheartbeat, hends, h⟩ | ⟨hheartbeat, hends, h⟩ := ofData_cases settings data <;>
      simp [*, @eq_comm _ html]

/-- Of two members the last one counts, and its name and the word are recognised behind escapes. -/
theorem classified_escaped :
    ofData {} "\n \x7b\"msg\": \"more\", \"m\\u0073g\":\"en\\u0064\"\x7d\u00a0" = .ending := by
  have htrim : Text.trim "\n \x7b\"msg\": \"more\", \"m\\u0073g\":\"en\\u0064\"\x7d\u00a0" =
      "\x7b\"msg\": \"more\", \"m\\u0073g\":\"en\\u0064\"\x7d" := by decide +kernel
  have hread : Json.Raw.read? "\x7b\"msg\": \"more\", \"m\\u0073g\":\"en\\u0064\"\x7d".toList =
      some (.object [
        ([.char 'm', .char 's', .char 'g'], .string [.char 'm', .char 'o', .char 'r', .char 'e']),
        ([.char 'm', .unit 0x73, .char 'g'], .string [.char 'e', .char 'n', .unit 0x64])], []) := by
    simp only [String.reduceToList]
    rfl
  have hreadable : Json.Raw.HaveReadable [
      ([.char 'm', .char 's', .char 'g'], .string [.char 'm', .char 'o', .char 'r', .char 'e']),
      ([.char 'm', .unit 0x73, .char 'g'], .string [.char 'e', .char 'n', .unit 0x64])] :=
    ⟨⟨_, rfl⟩, ⟨_, rfl⟩, ⟨_, rfl⟩, ⟨_, rfl⟩, trivial⟩
  rw [(classified {} _).ending_iff, htrim]
  refine ⟨by decide, .inr ⟨_, Json.isText_iff_read?.2 ⟨[], hread, rfl⟩, by decide, hreadable, ?_⟩⟩
  exact ⟨[_], _, _, [], rfl, by decide, ⟨_, rfl, by decide⟩, by simp⟩

end PageBindings.StreamMessage
