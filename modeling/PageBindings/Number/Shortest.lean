import PageBindings.Number.Binary64

/-!
# The shortest decimal of a double

`Binary64.shortest` gives the fewest decimal digits that are rounded to the same double, and of those the ones nearest
to it.  On each grid of decimals only the two neighbours of the number matter, since rounding is monotone; the first
grid with a neighbour that is rounded to the number wins.  Half-way between two such neighbours the even one is taken.
Should no grid have such a neighbour, the answer is the exact decimal expansion, so that the digits are rounded to the
number in every case.
-/

namespace PageBindings

/-- The decimal `digits · 10^exponent`. -/
structure Decimal where
  digits : Nat
  exponent : Int
deriving DecidableEq, Repr

namespace Decimal

/-- Moves the zeros at the end of the digits into the exponent; `fuel` bounds their number. -/
def withoutZeros : Nat → Decimal → Decimal
  | 0, d => d
  | fuel + 1, d =>
    if d.digits ≠ 0 ∧ d.digits % 10 = 0 then withoutZeros fuel ⟨d.digits / 10, d.exponent + 1⟩ else d

end Decimal

namespace Binary64

/-- The magnitude as numerator and denominator. -/
def ratio (x : Binary64) : Nat × Nat :=
  let scale := power 2 x.exponent
  (x.mantissa * scale.1, scale.2)

/-- The number of places before the decimal point: the `k` with `10^(k-1) ≤ |x| < 10^k`.  Zero has none. -/
def wholePlaces (x : Binary64) : Int :=
  let (num, den) := x.ratio
  (digitCount (num * Nat.pow 10 400 / den) : Int) - 400

/-- Whether a decimal, with the sign of `x`, is rounded to `x`. -/
def isNearest (x : Binary64) (d : Decimal) : Bool :=
  ofDecimal? x.negative d.digits d.exponent == some x

/--
The neighbour of `|x|` on the grid of step `10^exponent` that is rounded to it; of two that are the nearer one, and of
two that are equally near the even one.
-/
def onGrid? (x : Binary64) (exponent : Int) : Option Decimal :=
  let (num, den) := x.ratio
  let step := power 10 exponent
  let below := num * step.2 / (den * step.1)
  let twice := 2 * (num * step.2 % (den * step.1))
  let belowFirst := twice < den * step.1 || twice == den * step.1 && below % 2 == 0
  let nearFirst := if belowFirst then [below, below + 1] else [below + 1, below]
  (nearFirst.map fun digits => ⟨digits, exponent⟩).find? x.isNearest

/-- The exact decimal expansion. -/
def expansion (x : Binary64) : Decimal :=
  if 0 ≤ x.exponent then ⟨x.mantissa * Nat.pow 2 x.exponent.toNat, 0⟩
  else ⟨x.mantissa * Nat.pow 5 (-x.exponent).toNat, x.exponent⟩

/-- The fewest digits that are rounded to `x`, and of those the nearest. -/
def shortest (x : Binary64) : Decimal :=
  let places := x.wholePlaces
  let found := (List.range 17).findSome? fun (k : Nat) => x.onGrid? (places - (k + 1))
  Decimal.withoutZeros 400 (found.getD x.expansion)

end Binary64

end PageBindings
