import PageBindings.Json.Basic

/-!
# JSON text as it is written

Reading JSON has two halves.  The first one, here, recognises the grammar and keeps numbers and strings as they are
written: `Raw.read` takes one value off the front of a text.  It decides nothing that takes more than the grammar, so
a value may be nested at will, a number may be too large and half of a surrogate pair may stand alone.  What such a
text means is the second half, `Json.ofRaw?`.

Every reader takes characters and gives what it read with the characters that are left, or nothing if the text does
not go on as the grammar wants.
-/

namespace PageBindings.Json

/-- A character of a string as it is written: itself or by a simple escape, or a code unit of 16 bits. -/
inductive Piece where
  | char (c : Char)
  | unit (code : Nat)
deriving DecidableEq, Repr

/-- A number as it is written. -/
structure Numeral where
  negative : Bool
  whole : List Char
  fraction : Option (List Char)
  exponent : Option (Bool × List Char)
deriving DecidableEq, Repr

/-- A value as it is written. -/
inductive Raw where
  | null
  | bool (value : Bool)
  | number (numeral : Numeral)
  | string (pieces : List Piece)
  | array (items : List Raw)
  | object (members : List (List Piece × Raw))

/-- Drops the white space of the JSON grammar: space, tab, line feed and carriage return. -/
def skipSpace (cs : List Char) : List Char :=
  cs.dropWhile fun c => c == ' ' || c == '\t' || c == '\n' || c == '\r'

/-- The digits at the front. -/
def takeDigits (cs : List Char) : List Char × List Char :=
  (cs.takeWhile Char.isDigit, cs.dropWhile Char.isDigit)

theorem takeDigits_append (cs : List Char) : (takeDigits cs).1 ++ (takeDigits cs).2 = cs :=
  List.takeWhile_append_dropWhile

theorem isDigit_of_mem_takeDigits {cs : List Char} {c : Char} (h : c ∈ (takeDigits cs).1) : c.isDigit = true :=
  List.all_eq_true.1 List.all_takeWhile c h

/-- At least one digit. -/
def readDigits? (cs : List Char) : Option (List Char × List Char) :=
  let taken := takeDigits cs
  if taken.1.isEmpty then none else some taken

/-- The whole part of a number: no leading zeros. -/
def readWhole? (cs : List Char) : Option (List Char × List Char) :=
  match readDigits? cs with
  | some ('0' :: _ :: _, _) => none
  | other => other

/-- The fraction of a number, if a point follows. -/
def readFraction? (cs : List Char) : Option (Option (List Char) × List Char) :=
  match cs with
  | '.' :: rest => (readDigits? rest).map fun (digits, rest) => (some digits, rest)
  | rest => some (none, rest)

/-- The exponent of a number, if one follows; its flag says whether it is negative. -/
def readExponent? (cs : List Char) : Option (Option (Bool × List Char) × List Char) :=
  match cs with
  | e :: rest =>
    if e == 'e' || e == 'E' then
      let (negative, rest) := match rest with
        | '-' :: rest => (true, rest)
        | '+' :: rest => (false, rest)
        | rest => (false, rest)
      (readDigits? rest).map fun (digits, rest) => (some (negative, digits), rest)
    else some (none, cs)
  | [] => some (none, [])

/-- A number. -/
def readNumeral? (cs : List Char) : Option (Numeral × List Char) := do
  let (negative, cs) := match cs with
    | '-' :: rest => (true, rest)
    | rest => (false, rest)
  let (whole, cs) ← readWhole? cs
  let (fraction, cs) ← readFraction? cs
  let (exponent, cs) ← readExponent? cs
  return (⟨negative, whole, fraction, exponent⟩, cs)

/-- The value of a hexadecimal digit of either case. -/
def hexValue? (c : Char) : Option Nat :=
  if c.isDigit then some (c.toNat - '0'.toNat)
  else if 'a' ≤ c ∧ c ≤ 'f' then some (c.toNat - 'a'.toNat + 10)
  else if 'A' ≤ c ∧ c ≤ 'F' then some (c.toNat - 'A'.toNat + 10)
  else none

/-- The code unit of four hexadecimal digits. -/
def unit? (a b c d : Char) : Option Nat := do
  return (((← hexValue? a) * 16 + (← hexValue? b)) * 16 + (← hexValue? c)) * 16 + (← hexValue? d)

/-- What a backslash and this character stand for. -/
def simpleEscape? (c : Char) : Option Char :=
  match c with
  | '"' => some '"'
  | '\\' => some '\\'
  | '/' => some '/'
  | 'b' => some '\x08'
  | 'f' => some '\x0c'
  | 'n' => some '\n'
  | 'r' => some '\r'
  | 't' => some '\t'
  | _ => none

/-- The rest of a string, after its opening quote. -/
def readPieces? : List Char → Option (List Piece × List Char)
  | [] => none
  | '"' :: rest => some ([], rest)
  | '\\' :: 'u' :: a :: b :: c :: d :: rest => do
    let code ← unit? a b c d
    let (pieces, rest) ← readPieces? rest
    return (.unit code :: pieces, rest)
  | '\\' :: e :: rest => do
    let c ← simpleEscape? e
    let (pieces, rest) ← readPieces? rest
    return (.char c :: pieces, rest)
  | c :: rest =>
    if c.toNat < 0x20 || c == '\\' then none
    else (readPieces? rest).map fun (pieces, rest) => (.char c :: pieces, rest)

namespace Raw

mutual

/-- A value, after any white space.  The first argument bounds the number of values read. -/
def readWithin? : Nat → List Char → Option (Raw × List Char)
  | 0, _ => none
  | fuel + 1, cs =>
    match skipSpace cs with
    | '"' :: rest => (readPieces? rest).map fun (pieces, rest) => (.string pieces, rest)
    | '[' :: rest =>
      match skipSpace rest with
      | ']' :: rest => some (.array [], rest)
      | rest => (readItems? fuel rest).map fun (items, rest) => (.array items, rest)
    | '\x7b' :: rest =>
      match skipSpace rest with
      | '\x7d' :: rest => some (.object [], rest)
      | rest => (readMembers? fuel rest).map fun (members, rest) => (.object members, rest)
    | 'n' :: 'u' :: 'l' :: 'l' :: rest => some (.null, rest)
    | 't' :: 'r' :: 'u' :: 'e' :: rest => some (.bool true, rest)
    | 'f' :: 'a' :: 'l' :: 's' :: 'e' :: rest => some (.bool false, rest)
    | rest => (readNumeral? rest).map fun (numeral, rest) => (.number numeral, rest)

/-- The items of an array up to its closing bracket, at least one. -/
def readItems? : Nat → List Char → Option (List Raw × List Char)
  | 0, _ => none
  | fuel + 1, cs => do
    let (item, rest) ← readWithin? fuel cs
    match skipSpace rest with
    | ',' :: rest => do
      let (items, rest) ← readItems? fuel rest
      return (item :: items, rest)
    | ']' :: rest => return ([item], rest)
    | _ => none

/-- The members of an object up to its closing brace, at least one. -/
def readMembers? : Nat → List Char → Option (List (List Piece × Raw) × List Char)
  | 0, _ => none
  | fuel + 1, cs =>
    match skipSpace cs with
    | '"' :: rest => do
      let (name, rest) ← readPieces? rest
      match skipSpace rest with
      | ':' :: rest => do
        let (value, rest) ← readWithin? fuel rest
        match skipSpace rest with
        | ',' :: rest => do
          let (members, rest) ← readMembers? fuel rest
          return ((name, value) :: members, rest)
        | '\x7d' :: rest => return ([(name, value)], rest)
        | _ => none
      | _ => none
    | _ => none

end

/-- A value at the front of a text, after any white space.  There are at most as many values as characters. -/
def read? (cs : List Char) : Option (Raw × List Char) :=
  readWithin? (2 * cs.length + 1) cs

end Raw

end PageBindings.Json
