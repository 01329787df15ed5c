import PageBindings.Text.Unprintable

/-!
# Quoted texts

Messages show a text in double quotes (`quoted`).  The quote, the backslash and the usual controls are escaped by a
backslash, other characters that do not show are spelled by their number in hexadecimal, and all else stands for
itself.
-/

namespace PageBindings.Text

/-- The hexadecimal digits of a number, in lower case. -/
def hexadecimal (n : Nat) : List Char :=
  Nat.toDigits 16 n

/-- How one character is written between the quotes. -/
def quotedChar (c : Char) : List Char :=
  match c with
  | '"' => ['\\', '"']
  | '\\' => ['\\', '\\']
  | '\t' => ['\\', 't']
  | '\n' => ['\\', 'n']
  | '\r' => ['\\', 'r']
  | '\x00' => ['\\', '0']
  | c => if isUnprintable c then ['\\', 'u', '\x7b'] ++ hexadecimal c.toNat ++ ['\x7d'] else [c]

/-- The text in double quotes. -/
def quoted (s : String) : String :=
  String.ofList ('"' :: s.toList.flatMap quotedChar ++ ['"'])

end PageBindings.Text
