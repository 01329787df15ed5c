import PageBindings.Json.Basic

/-!
# Writing JSON

`Json.render` writes a value without spaces.  Only what must be escaped is: the quote, the backslash and the controls
below U+0020, which have a letter of their own or else four hexadecimal digits in lower case.
-/

namespace PageBindings.Json

/-- The hexadecimal digit of a number below sixteen, in lower case. -/
def hexDigitLower (n : Nat) : Char :=
  Char.ofNat (if n < 10 then '0'.toNat + n else 'a'.toNat + (n - 10))

/-- How one character is written in a string. -/
def escapedChar (c : Char) : List Char :=
  match c with
  | '"' => ['\\', '"']
  | '\\' => ['\\', '\\']
  | '\x08' => ['\\', 'b']
  | '\t' => ['\\', 't']
  | '\n' => ['\\', 'n']
  | '\x0c' => ['\\', 'f']
  | '\r' => ['\\', 'r']
  | c =>
    if c.toNat < 0x20 then ['\\', 'u', '0', '0', hexDigitLower (c.toNat / 16), hexDigitLower (c.toNat % 16)]
    else [c]

/-- A string with its quotes. -/
def writeString (s : String) : List Char :=
  '"' :: s.toList.flatMap escapedChar ++ ['"']

/-- The decimal digits of an integer, after its sign. -/
def writeInteger (n : Int) : List Char :=
  (if n < 0 then ['-'] else []) ++ Nat.toDigits 10 n.natAbs

/-- A number; a double has a point or an exponent, an integer has neither. -/
def writeNumber : Number → List Char
  | .integer n _ => writeInteger n
  | .double x => x.write

mutual

/-- The characters of a value. -/
def write : Json → List Char
  | .null => ['n', 'u', 'l', 'l']
  | .bool true => ['t', 'r', 'u', 'e']
  | .bool false => ['f', 'a', 'l', 's', 'e']
  | .number n => writeNumber n
  | .string s => writeString s
  | .array items => '[' :: writeItems items ++ [']']
  | .object members => '\x7b' :: writeMembers members ++ ['\x7d']

/-- The items of an array, with commas between them. -/
def writeItems : List Json → List Char
  | [] => []
  | [v] => write v
  | v :: rest => write v ++ ',' :: writeItems rest

/-- The members of an object, with commas between them. -/
def writeMembers : List (String × Json) → List Char
  | [] => []
  | [(k, v)] => writeString k ++ ':' :: write v
  | (k, v) :: rest => writeString k ++ ':' :: write v ++ ',' :: writeMembers rest

end

/-- The text of a value. -/
def render (v : Json) : String :=
  String.ofList (write v)

end PageBindings.Json
