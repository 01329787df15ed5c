/-!
# Binary numbers of double precision

A finite double is `±mantissa · 2^exponent` with at most 53 bits of mantissa (`Binary64`); its representation is
unique up to the sign of zero, so equality of fields is equality of numbers.  `Binary64.ofDecimal?` rounds a decimal
`±digits · 10^exponent` once, to the nearest double, a tie going to the even mantissa; it refuses numbers beyond the
largest double.  That is what the digits of a double are chosen by when it is written; texts are read with more than
one rounding (`Binary64.ofParts?`).  All arithmetic is exact, on natural numbers.
-/

namespace PageBindings

/-- The mantissas and exponents of finite doubles: 53 bits, all of them used unless the exponent is the least one. -/
def Binary64.IsCanonical (mantissa : Nat) (exponent : Int) : Prop :=
  mantissa < Nat.pow 2 53 ∧ -1074 ≤ exponent ∧ exponent ≤ 971 ∧ (Nat.pow 2 52 ≤ mantissa ∨ exponent = -1074)

instance (mantissa : Nat) (exponent : Int) : Decidable (Binary64.IsCanonical mantissa exponent) := by
  unfold Binary64.IsCanonical
  infer_instance

/-- A finite double: the number `mantissa · 2^exponent` with a sign, which zero has too. -/
structure Binary64 where
  negative : Bool
  mantissa : Nat
  exponent : Int
  isCanonical : Binary64.IsCanonical mantissa exponent
deriving DecidableEq

namespace Binary64

/-- Zero with the given sign. -/
def zero (negative : Bool) : Binary64 :=
  ⟨negative, 0, -1074, by decide⟩

/-- Equality as numbers, for which both zeros are the same. -/
def sameNumber (a b : Binary64) : Bool :=
  a == b || a.mantissa == 0 && b.mantissa == 0

/-- The double with these fields, if there is one. -/
def make? (negative : Bool) (mantissa : Nat) (exponent : Int) : Option Binary64 :=
  if h : IsCanonical mantissa exponent then some ⟨negative, mantissa, exponent, h⟩ else none

/-- `num / den` rounded to the nearest natural number, a tie going to the even one. -/
def roundedQuotient (num den : Nat) : Nat :=
  let quotient := num / den
  let twice := 2 * (num % den)
  if twice < den || twice == den && quotient % 2 == 0 then quotient else quotient + 1

/-- The fraction `base^exponent`, as numerator and denominator. -/
def power (base : Nat) (exponent : Int) : Nat × Nat :=
  if 0 ≤ exponent then (Nat.pow base exponent.toNat, 1) else (1, Nat.pow base (-exponent).toNat)

/-- The least exponent for which `num / den` needs no more than 53 bits of mantissa. -/
def fittingExponent (num den : Nat) : Int :=
  let difference : Int := (Nat.log2 num : Int) - Nat.log2 den
  let scale := power 2 difference
  max (-1074) (if num * scale.2 < den * scale.1 then difference - 53 else difference - 52)

/-- The double nearest to `num / den`; nothing if that is beyond the largest double. -/
def ofRatio? (negative : Bool) (num den : Nat) : Option Binary64 :=
  let exponent := fittingExponent num den
  let scale := power 2 exponent
  let mantissa := roundedQuotient (num * scale.2) (den * scale.1)
  if mantissa = Nat.pow 2 53 then make? negative (Nat.pow 2 52) (exponent + 1) else make? negative mantissa exponent

/-- The number of decimal digits of `n`. -/
def digitCount (n : Nat) : Nat :=
  (Nat.toDigits 10 n).length

/--
The double nearest to `±digits · 10^exponent`; nothing if that is beyond the largest double.  Numbers of more than 310
places are too large, and those below `10^-330` are nearest to zero, whatever their digits.
-/
def ofDecimal? (negative : Bool) (digits : Nat) (exponent : Int) : Option Binary64 :=
  let places := digitCount digits + exponent
  if digits = 0 ∨ places < -330 then some (zero negative)
  else if 310 < places then none
  else
    let scale := power 10 exponent
    ofRatio? negative (digits * scale.1) scale.2

end Binary64

end PageBindings
