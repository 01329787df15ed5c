import PageBindings.Json.Raw
import PageBindings.Number.Reading

/-!
# Reading JSON

`Json.parse?` reads a text that is one JSON value: the grammar of `Json.Raw` together with the limits of the values
themselves.  Arrays and objects may be nested 127 deep, a number must not be read as infinite, and code units must
join to characters.  Of several members with one name the last counts.

Numbers that are no integers of 64 bits are read in the arithmetic of doubles (`Numeral.decimal`,
`Binary64.ofParts?`), which need not give the nearest double.
-/

namespace PageBindings.Json

/-- The number that decimal digits spell. -/
def digitsValue (digits : List Char) : Nat :=
  digits.foldl (fun n c => 10 * n + (c.toNat - '0'.toNat)) 0

/-- Takes digits into a number of 64 bits, up to the first one that would not fit: the number, and the digits left. -/
def takeFitting (significand : Nat) : List Char → Nat × List Char
  | [] => (significand, [])
  | c :: rest =>
    let next := 10 * significand + (c.toNat - '0'.toNat)
    if next < Nat.pow 2 64 then takeFitting next rest else (significand, c :: rest)

namespace Numeral

/-- The power of ten by which the exponent of a numeral scales it. -/
def power (n : Numeral) : Int :=
  match n.exponent with
  | none => 0
  | some (true, digits) => -(digitsValue digits : Int)
  | some (false, digits) => digitsValue digits

/--
The decimal as which a numeral is read.  Its digits fit 64 bits.  Digits of the whole part beyond that count as zeros,
and those of the fraction are left out, from the first one that does not fit.
-/
def decimal (n : Numeral) : Decimal :=
  let fraction := n.fraction.getD []
  let whole := takeFitting 0 n.whole
  let all := takeFitting whole.1 fraction
  ⟨all.1, n.power + whole.2.length - (fraction.length - all.2.length : Nat)⟩

/-- The integer that the sign and the whole part of a numeral spell. -/
def integer (n : Numeral) : Int :=
  if n.negative then -(digitsValue n.whole : Int) else digitsValue n.whole

/--
The number a numeral is read as.  Without fraction and exponent it is an integer if it fits 64 bits; every other
numeral is a double, minus zero among them.
-/
def value? (n : Numeral) : Option Number :=
  if h : IsMachineInteger n.integer ∧ n.fraction = none ∧ n.exponent = none ∧
      ¬(n.negative = true ∧ n.integer = 0) then some (.integer n.integer h.1)
  else (Binary64.ofParts? n.negative n.decimal).map .double

end Numeral

/-- Whether a code unit is the first half of a surrogate pair. -/
def isHighSurrogate (code : Nat) : Bool :=
  0xD800 ≤ code && code < 0xDC00

/-- Whether a code unit is the second half of a surrogate pair. -/
def isLowSurrogate (code : Nat) : Bool :=
  0xDC00 ≤ code && code < 0xE000

/-- The characters of a string: surrogate pairs are joined, and half of one that stands alone is refused. -/
def joinPieces? : List Piece → Option (List Char)
  | [] => some []
  | .char c :: rest => (joinPieces? rest).map (c :: ·)
  | .unit high :: .unit low :: rest =>
    if isHighSurrogate high && isLowSurrogate low then
      (joinPieces? rest).map (Char.ofNat (0x10000 + (high - 0xD800) * 0x400 + (low - 0xDC00)) :: ·)
    else if isHighSurrogate high || isLowSurrogate high then none
    else (joinPieces? (.unit low :: rest)).map (Char.ofNat high :: ·)
  | .unit code :: rest =>
    if isHighSurrogate code || isLowSurrogate code then none
    else (joinPieces? rest).map (Char.ofNat code :: ·)

/-- The text of a string. -/
def textOf? (pieces : List Piece) : Option String :=
  (joinPieces? pieces).map String.ofList

mutual

/-- The value of a text, nested at most `limit` deep. -/
def ofRaw? (limit : Nat) : Raw → Option Json
  | .null => some .null
  | .bool b => some (.bool b)
  | .number n => n.value?.map .number
  | .string pieces => (textOf? pieces).map .string
  | .array items =>
    match limit with
    | 0 => none
    | limit + 1 => (itemsOfRaw? limit items).map .array
  | .object members =>
    match limit with
    | 0 => none
    | limit + 1 => (membersOfRaw? limit members).map fun members => .object (sortMembers members)

/-- The values of items. -/
def itemsOfRaw? (limit : Nat) : List Raw → Option (List Json)
  | [] => some []
  | item :: rest => do
    let item ← ofRaw? limit item
    let rest ← itemsOfRaw? limit rest
    return item :: rest

/-- The values of members, in the order of the text. -/
def membersOfRaw? (limit : Nat) : List (List Piece × Raw) → Option (List (String × Json))
  | [] => some []
  | (name, value) :: rest => do
    let name ← textOf? name
    let value ← ofRaw? limit value
    let rest ← membersOfRaw? limit rest
    return (name, value) :: rest

end

/-- How deep arrays and objects may be nested in a text. -/
def nestingLimit : Nat := 127

/-- The value of a text that is one value, nested at most `limit` deep, with white space around it. -/
def parseWithin? (limit : Nat) (text : String) : Option Json := do
  let (raw, rest) ← Raw.read? text.toList
  if (skipSpace rest).isEmpty then ofRaw? limit raw else none

/-- The value of a JSON text. -/
def parse? (text : String) : Option Json :=
  parseWithin? nestingLimit text

end PageBindings.Json
