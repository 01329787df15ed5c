import PageBindings.Number.Shortest

/-!
# How decimals are read

A decimal is read in the arithmetic of doubles (`Binary64.ofParts?`): the double nearest to its digits is multiplied
by the one nearest to the power of ten, or divided by it.  Every operation rounds, so what is read need not be the
double nearest to the decimal, which is `Binary64.ofDecimal?`: `3e23` and `1e-30` are read as a neighbour of it.  For
short decimals the two agree.
-/

namespace PageBindings.Binary64

/-- The double nearest to `num / den`, without a sign; nothing if that is beyond the largest double. -/
def nearest? (num den : Nat) : Option Binary64 :=
  if num = 0 then some (zero false) else ofRatio? false num den

/-- The product of the magnitudes, rounded. -/
def mul? (x y : Binary64) : Option Binary64 :=
  nearest? (x.ratio.1 * y.ratio.1) (x.ratio.2 * y.ratio.2)

/-- The quotient of the magnitudes, rounded. -/
def div? (x y : Binary64) : Option Binary64 :=
  nearest? (x.ratio.1 * y.ratio.2) (x.ratio.2 * y.ratio.1)

/-- The double nearest to `10^k`, of those powers that have one: the last is `10^308`. -/
def powerOfTen? (k : Nat) : Option Binary64 :=
  if k ≤ 308 then nearest? (Nat.pow 10 k) 1 else none

/-- `x * 10^k`.  Zero stays zero, however large the power. -/
def timesPower? (x : Binary64) (k : Nat) : Option Binary64 :=
  if x.mantissa = 0 then some x else do x.mul? (← powerOfTen? k)

/-- Divides so many times by `10^308`, or until there is nothing left but zero. -/
def lowered? : Nat → Binary64 → Option Binary64
  | 0, x => some x
  | times + 1, x => if x.mantissa = 0 then some x else do lowered? times (← x.div? (← powerOfTen? 308))

/-- `x / 10^k`, where powers beyond `10^308` are reached in steps of that. -/
def overPower? (x : Binary64) (k : Nat) : Option Binary64 := do
  let x ← lowered? ((k - 1) / 308) x
  x.div? (← powerOfTen? (k - 308 * ((k - 1) / 308)))

/-- `x * 10^exponent`. -/
def scaled? (x : Binary64) (exponent : Int) : Option Binary64 :=
  if 0 ≤ exponent then x.timesPower? exponent.toNat else x.overPower? (-exponent).toNat

/-- The double as which a decimal is read; nothing if that would be infinite.  The sign comes last. -/
def ofParts? (negative : Bool) (d : Decimal) : Option Binary64 :=
  ((nearest? d.digits 1).bind (scaled? · d.exponent)).map fun x => { x with negative }

end PageBindings.Binary64
