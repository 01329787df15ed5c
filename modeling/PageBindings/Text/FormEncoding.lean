/-!
# Form encoding

The encoding of names and values in the query of a URL (`application/x-www-form-urlencoded`): a byte of the text's
UTF-8 form stands for itself if it is an ASCII letter or digit or one of `*-._`, a space is a plus sign, and every
other byte is a percent sign and two hexadecimal digits in upper case.
-/

namespace PageBindings.Text

/-- Whether a byte stands for itself in a form-encoded text. -/
def isFormPlain (b : UInt8) : Bool :=
  let c := Char.ofNat b.toNat
  c.isAlphanum || c == '*' || c == '-' || c == '.' || c == '_'

/-- The hexadecimal digit of a number below sixteen, in upper case. -/
def hexDigitUpper (n : Nat) : Char :=
  Char.ofNat (if n < 10 then '0'.toNat + n else 'A'.toNat + (n - 10))

/-- How one byte is written. -/
def formByte (b : UInt8) : List Char :=
  if isFormPlain b then [Char.ofNat b.toNat]
  else if b = 0x20 then ['+']
  else ['%', hexDigitUpper (b.toNat / 16), hexDigitUpper (b.toNat % 16)]

/-- The form-encoded text. -/
def formEncoded (s : String) : String :=
  String.ofList (s.toUTF8.data.toList.flatMap formByte)

end PageBindings.Text
