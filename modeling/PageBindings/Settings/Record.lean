import PageBindings.Json.Reader

/-!
# Reading records from JSON text

Settings are read straight from the text, from left to right, so of several faults the first one in the text is
reported.  A record (`readRecord`) is an object with the fields as members in any order, or an array with the fields
in their order of declaration; fields that are left out keep their value.  A known field must not be repeated.
Unknown members are skipped, and their values are held to the grammar alone.

A reader takes the characters in front of a value and gives the value with the characters that are left.
-/

namespace PageBindings

/-- Why settings could not be read. -/
inductive SettingsError where
  /-- The text is not JSON. -/
  | notJson
  /-- A value is of another type than the setting; `expected` says of which. -/
  | wrongType (found : Json) (expected : String)
  /-- A field occurs twice. -/
  | duplicateField (name : String)

/-- The wording of an error about the settings; text that is not JSON has none. -/
def SettingsError.message? : SettingsError → Option String
  | .notJson => none
  | .wrongType found expected => some ("invalid type: " ++ found.describe ++ ", expected " ++ expected)
  | .duplicateField name => some ("duplicate field \x60" ++ name ++ "\x60")

namespace Settings

/-- What a reader of the grammar found; if it found nothing, the text is not JSON. -/
def grammatical {α : Type} : Option α → Except SettingsError α
  | some a => .ok a
  | none => .error .notJson

/--
The error for a value that is not of the expected type.  Scalars are read first, and a fault in one of them goes
first; of arrays and objects only the bracket counts.
-/
def wrongType {α : Type} (expected : String) (cs : List Char) : Except SettingsError α :=
  match Json.skipSpace cs with
  | '[' :: _ => .error (.wrongType (.array []) expected)
  | '\x7b' :: _ => .error (.wrongType (.object []) expected)
  | cs => do
    let (raw, _) ← grammatical (Json.Raw.read? cs)
    let value ← grammatical (Json.ofRaw? 0 raw)
    .error (.wrongType value expected)

/-- A string. -/
def readString (cs : List Char) : Except SettingsError (String × List Char) :=
  match Json.skipSpace cs with
  | '"' :: rest => do
    let (pieces, rest) ← grammatical (Json.readPieces? rest)
    let text ← grammatical (Json.textOf? pieces)
    return (text, rest)
  | cs => wrongType "a string" cs

/-- A string or null. -/
def readOptionalString (cs : List Char) : Except SettingsError (Option String × List Char) :=
  match Json.skipSpace cs with
  | 'n' :: rest =>
    match rest with
    | 'u' :: 'l' :: 'l' :: rest => return (none, rest)
    | _ => .error .notJson
  | cs => do
    let (text, rest) ← readString cs
    return (some text, rest)

/-- What follows an element of an array: a comma and then another one, or the closing bracket. -/
inductive AfterElement where
  | another (rest : List Char)
  | closed (rest : List Char)

/-- Reads on after an element up to the next one or the end of the array. -/
def readAfterElement (cs : List Char) : Except SettingsError AfterElement :=
  match Json.skipSpace cs with
  | ']' :: rest => return .closed rest
  | ',' :: rest =>
    match Json.skipSpace rest with
    | ']' :: _ => .error .notJson
    | [] => .error .notJson
    | rest => return .another rest
  | _ => .error .notJson

/-- The strings of an array from the first one on, up to the closing bracket; `fuel` bounds their number. -/
def readStringsWithin : Nat → List Char → Except SettingsError (List String × List Char)
  | 0, _ => .error .notJson
  | fuel + 1, cs => do
    let (text, rest) ← readString cs
    match ← readAfterElement rest with
    | .closed rest => return ([text], rest)
    | .another rest => do
      let (texts, rest) ← readStringsWithin fuel rest
      return (text :: texts, rest)

/-- An array of strings. -/
def readStrings (cs : List Char) : Except SettingsError (List String × List Char) :=
  match Json.skipSpace cs with
  | '[' :: rest =>
    match Json.skipSpace rest with
    | ']' :: rest => return ([], rest)
    | rest => readStringsWithin rest.length rest
  | cs => wrongType "a sequence" cs

/-- A field of a record: its name, and how a value for it is read, which gives the change to the record. -/
structure Field (ρ : Type) where
  name : String
  read : List Char → Except SettingsError ((ρ → ρ) × List Char)

/-- The field of a record that holds values of type `α`. -/
def Field.of {ρ α : Type} (name : String) (read : List Char → Except SettingsError (α × List Char))
    (set : α → ρ → ρ) : Field ρ where
  name := name
  read cs := do
    let (value, rest) ← read cs
    return (set value, rest)

/-- The colon between the name of a member and its value. -/
def readColon (cs : List Char) : Except SettingsError (List Char) :=
  match Json.skipSpace cs with
  | ':' :: rest => return rest
  | _ => .error .notJson

/--
The members of an object from the first one on, up to the closing brace; `fuel` bounds their number, and `seen` holds
the fields that have occurred.
-/
def readMembersWithin {ρ : Type} (fields : List (Field ρ)) :
    Nat → List String → ρ → List Char → Except SettingsError (ρ × List Char)
  | 0, _, _, _ => .error .notJson
  | fuel + 1, seen, record, cs =>
    match Json.skipSpace cs with
    | '"' :: rest => do
      let (pieces, rest) ← grammatical (Json.readPieces? rest)
      let name ← grammatical (Json.textOf? pieces)
      let (record, seen, rest) ← match fields.find? (·.name == name) with
        | some field => do
          if seen.contains name then .error (.duplicateField name)
          let rest ← readColon rest
          let (change, rest) ← field.read rest
          pure (change record, name :: seen, rest)
        | none => do
          let rest ← readColon rest
          let (_, rest) ← grammatical (Json.Raw.read? rest)
          pure (record, seen, rest)
      match Json.skipSpace rest with
      | '\x7d' :: rest => return (record, rest)
      | ',' :: rest => readMembersWithin fields fuel seen record rest
      | _ => .error .notJson
    | _ => .error .notJson

/-- The elements of an array for the given fields, from the first one on, up to the closing bracket. -/
def readElements {ρ : Type} : List (Field ρ) → ρ → List Char → Except SettingsError (ρ × List Char)
  | [], _, _ => .error .notJson
  | field :: fields, record, cs => do
    let (change, rest) ← field.read cs
    match ← readAfterElement rest with
    | .closed rest => return (change record, rest)
    | .another rest => readElements fields (change record) rest

/-- A record, starting from one that holds the defaults; `expected` is what messages call it. -/
def readRecord {ρ : Type} (expected : String) (fields : List (Field ρ)) (defaults : ρ) (cs : List Char) :
    Except SettingsError (ρ × List Char) :=
  match Json.skipSpace cs with
  | '\x7b' :: rest =>
    match Json.skipSpace rest with
    | '\x7d' :: rest => return (defaults, rest)
    | rest => readMembersWithin fields rest.length [] defaults rest
  | '[' :: rest =>
    match Json.skipSpace rest with
    | ']' :: rest => return (defaults, rest)
    | rest => readElements fields defaults rest
  | cs => wrongType expected cs

end Settings

end PageBindings
