import PageBindings.Number.Shortest

/-!
# How doubles are written

`Binary64.write` writes the shortest decimal of a double: positionally from `0.00001` up to sixteen places before the
point, and with an exponent outside of that.  Positional numbers always have a decimal point, so the text of a double
is never the text of an integer.
-/

namespace PageBindings.Binary64

/-- Whether a number is written positionally, given the decimal exponent of its first digit. -/
def isPositional (exponent : Int) : Bool :=
  -5 ≤ exponent && exponent ≤ 15

/-- Digits with the decimal point after the first `places` of them, filled up with zeros on either side. -/
def positionalText (digits : List Char) (places : Int) : List Char :=
  if places ≤ 0 then '0' :: '.' :: List.replicate (-places).toNat '0' ++ digits
  else
    let whole := places.toNat
    if digits.length ≤ whole then digits ++ List.replicate (whole - digits.length) '0' ++ ['.', '0']
    else digits.take whole ++ '.' :: digits.drop whole

/-- Digits with the decimal point after the first one, and the exponent with its sign. -/
def exponentText (digits : List Char) (exponent : Int) : List Char :=
  let significand := match digits with
    | first :: second :: more => first :: '.' :: second :: more
    | short => short
  significand ++ 'e' :: (if exponent < 0 then '-' else '+') :: Nat.toDigits 10 exponent.natAbs

/-- The characters of a double. -/
def write (x : Binary64) : List Char :=
  let sign := if x.negative then ['-'] else []
  if x.mantissa = 0 then sign ++ ['0', '.', '0']
  else
    let d := x.shortest
    let digits := Nat.toDigits 10 d.digits
    let places := (digits.length : Int) + d.exponent
    if isPositional (places - 1) then sign ++ positionalText digits places
    else sign ++ exponentText digits (places - 1)

end PageBindings.Binary64
