import Mathlib.Algebra.Order.Field.Power
import Mathlib.Data.Int.Log
import Mathlib.Data.Rat.Floor
import Mathlib.Tactic.Positivity
import Mathlib.Tactic.Ring
import PageBindings.Number.Notation

/-!
# Rounding

The double nearest to a fraction depends on the value of the fraction only (`Binary64.ofRatio?_congr`), so that zeros
may move between the digits of a decimal and its exponent (`ofDecimal?_shift`).  A double is the one nearest to itself
(`ofRatio?_ratio`); hence its exact expansion is rounded to it, and so are the shortest digits, which are the
expansion only if no shorter ones are (`ofDecimal?_shortest`).
-/

namespace PageBindings.Binary64

variable {num den num' den' : Nat} {negative : Bool}

/-! ### Powers as fractions -/

theorem power_fst_pos {base : Nat} (h : 0 < base) (exponent : Int) : 0 < (power base exponent).1 := by
  unfold power
  split
  · exact Nat.pow_pos h
  · exact Nat.zero_lt_one

theorem power_snd_pos {base : Nat} (h : 0 < base) (exponent : Int) : 0 < (power base exponent).2 := by
  unfold power
  split
  · exact Nat.zero_lt_one
  · exact Nat.pow_pos h

theorem power_fst_eq {base : Nat} (h : 0 < base) (exponent : Int) :
    ((power base exponent).1 : ℚ) = (base : ℚ) ^ exponent * (power base exponent).2 := by
  have hbase : (base : ℚ) ≠ 0 := Nat.cast_ne_zero.2 h.ne'
  unfold power
  split
  · rename_i hnonneg
    lift exponent to Nat using hnonneg
    simp
  · rename_i hneg
    obtain ⟨k, hk⟩ := Int.eq_ofNat_of_zero_le (Int.neg_nonneg.2 (Int.le_of_not_le hneg))
    obtain rfl : exponent = -(k : Int) := by rw [← hk, Int.neg_neg]
    simp [hbase]

private theorem ratio_lt_iff (hden : 0 < den) (exponent : Int) :
    num * (power 2 exponent).2 < den * (power 2 exponent).1 ↔ (num : ℚ) / den < 2 ^ exponent := by
  have hdenQ : (0 : ℚ) < den := Nat.cast_pos.2 hden
  have hscale : (0 : ℚ) < (power 2 exponent).2 := Nat.cast_pos.2 (power_snd_pos two_pos exponent)
  have hpower := power_fst_eq two_pos exponent
  rw [← Nat.cast_lt (α := ℚ), Nat.cast_mul, Nat.cast_mul, hpower, div_lt_iff₀ hdenQ]
  push_cast
  rw [← mul_assoc, mul_comm (den : ℚ), mul_lt_mul_iff_left₀ hscale]

/-! ### The nearest double -/

private theorem two_pow_log2_le {n : Nat} (h : 0 < n) : (2 : ℚ) ^ (Nat.log2 n : Int) ≤ n := by
  rw [zpow_natCast]
  exact_mod_cast Nat.log2_self_le h.ne'

private theorem lt_two_pow_log2 (n : Nat) : (n : ℚ) < 2 ^ ((Nat.log2 n : Int) + 1) := by
  have h : n < 2 ^ (Nat.log2 n + 1) := Nat.lt_log2_self
  calc (n : ℚ) < ((2 ^ (Nat.log2 n + 1) : Nat) : ℚ) := Nat.cast_lt.2 h
    _ = 2 ^ ((Nat.log2 n : Int) + 1) := by
      rw [Nat.cast_pow, ← zpow_natCast]
      rfl

theorem fittingExponent_eq (hnum : 0 < num) (hden : 0 < den) :
    fittingExponent num den = max (-1074) (Int.log 2 ((num : ℚ) / den) - 52) := by
  have hdenQ : (0 : ℚ) < den := Nat.cast_pos.2 hden
  have hpos : 0 < (num : ℚ) / den := div_pos (Nat.cast_pos.2 hnum) hdenQ
  have hlower : (2 : ℚ) ^ ((Nat.log2 num : Int) - Nat.log2 den - 1) ≤ (num : ℚ) / den := by
    rw [le_div_iff₀ hdenQ]
    calc (2 : ℚ) ^ ((Nat.log2 num : Int) - Nat.log2 den - 1) * den
        ≤ 2 ^ ((Nat.log2 num : Int) - Nat.log2 den - 1) * 2 ^ ((Nat.log2 den : Int) + 1) := by
          gcongr
          exact (lt_two_pow_log2 den).le
      _ = 2 ^ (Nat.log2 num : Int) := by
          rw [← zpow_add₀ two_ne_zero]
          congr 1
          omega
      _ ≤ num := two_pow_log2_le hnum
  have hupper : (num : ℚ) / den < 2 ^ ((Nat.log2 num : Int) - Nat.log2 den + 1) := by
    rw [div_lt_iff₀ hdenQ]
    calc (num : ℚ) < 2 ^ ((Nat.log2 num : Int) + 1) := lt_two_pow_log2 num
      _ = 2 ^ ((Nat.log2 num : Int) - Nat.log2 den + 1) * 2 ^ (Nat.log2 den : Int) := by
          rw [← zpow_add₀ two_ne_zero]
          congr 1
          omega
      _ ≤ 2 ^ ((Nat.log2 num : Int) - Nat.log2 den + 1) * den := by
          gcongr
          exact two_pow_log2_le hden
  have hlow := (Int.zpow_le_iff_le_log one_lt_two hpos).1 hlower
  have hup := (Int.lt_zpow_iff_log_lt one_lt_two hpos).1 hupper
  unfold fittingExponent
  simp only
  split
  · rename_i hlt
    have hlog := (Int.lt_zpow_iff_log_lt one_lt_two hpos).1 ((ratio_lt_iff hden _).1 hlt)
    congr 1
    omega
  · rename_i hge
    have hlog := (Int.zpow_le_iff_le_log one_lt_two hpos).1 (not_lt.1 fun hlt => hge ((ratio_lt_iff hden _).2 hlt))
    congr 1
    omega

private theorem roundedQuotient_mul {c : Nat} (h : 0 < c) :
    roundedQuotient (num * c) (den * c) = roundedQuotient num den := by
  have hmod : 2 * (num * c % (den * c)) = 2 * (num % den) * c := by
    rw [Nat.mul_mod_mul_right, Nat.mul_assoc]
  unfold roundedQuotient
  simp only [hmod, Nat.mul_div_mul_right _ _ h, Nat.mul_lt_mul_right h, beq_iff_eq, Bool.and_eq_true, Bool.or_eq_true,
    decide_eq_true_eq, Nat.mul_left_inj h.ne']

private theorem roundedQuotient_congr (hden : 0 < den) (hden' : 0 < den') (h : num * den' = num' * den) :
    roundedQuotient num den = roundedQuotient num' den' := by
  rw [← roundedQuotient_mul hden', h, Nat.mul_comm den, roundedQuotient_mul hden]

/-- The nearest double depends only on the value of the fraction. -/
theorem ofRatio?_congr (hnum : 0 < num) (hden : 0 < den) (hden' : 0 < den') (h : num * den' = num' * den) :
    ofRatio? negative num den = ofRatio? negative num' den' := by
  have hnum' : 0 < num' := Nat.pos_of_mul_pos_right (h ▸ Nat.mul_pos hnum hden')
  have hvalue : (num : ℚ) / den = num' / den' := by
    rw [div_eq_div_iff (Nat.cast_ne_zero.2 hden.ne') (Nat.cast_ne_zero.2 hden'.ne')]
    exact_mod_cast h
  have hfitting : fittingExponent num den = fittingExponent num' den' := by
    rw [fittingExponent_eq hnum hden, fittingExponent_eq hnum' hden', hvalue]
  unfold ofRatio?
  simp only [hfitting]
  generalize fittingExponent num' den' = exponent
  have hscale := power_fst_pos two_pos exponent
  have hcross : num * (power 2 exponent).2 * (den' * (power 2 exponent).1) =
      num' * (power 2 exponent).2 * (den * (power 2 exponent).1) := by
    rw [mul_mul_mul_comm, mul_mul_mul_comm num', h]
  rw [roundedQuotient_congr (Nat.mul_pos hden hscale) (Nat.mul_pos hden' hscale) hcross]

/-- The value of a double but for its sign. -/
def magnitude (x : Binary64) : ℚ :=
  x.mantissa * 2 ^ x.exponent

theorem ratio_fst_pos {x : Binary64} (h : x.mantissa ≠ 0) : 0 < x.ratio.1 :=
  Nat.mul_pos (Nat.pos_of_ne_zero h) (power_fst_pos two_pos _)

theorem ratio_snd_pos (x : Binary64) : 0 < x.ratio.2 :=
  power_snd_pos two_pos _

theorem ratio_eq_magnitude (x : Binary64) : (x.ratio.1 : ℚ) / x.ratio.2 = x.magnitude := by
  rw [div_eq_iff (Nat.cast_ne_zero.2 (ratio_snd_pos x).ne')]
  unfold ratio magnitude
  rw [Nat.cast_mul, power_fst_eq two_pos]
  push_cast
  ring

/-- The exponent of a double is the least for which its value fits. -/
theorem fittingExponent_ratio {x : Binary64} (h : x.mantissa ≠ 0) :
    fittingExponent x.ratio.1 x.ratio.2 = x.exponent := by
  obtain ⟨hmantissa, hleast, -, hnormal⟩ := x.isCanonical
  have hpos : (0 : ℚ) < x.mantissa * 2 ^ x.exponent := by
    have : (0 : ℚ) < x.mantissa := Nat.cast_pos.2 (Nat.pos_of_ne_zero h)
    positivity
  have hup : Int.log 2 (x.mantissa * 2 ^ x.exponent : ℚ) < 53 + x.exponent := by
    refine (Int.lt_zpow_iff_log_lt one_lt_two hpos).1 ?_
    have hlt : (x.mantissa : ℚ) < 2 ^ (53 : Int) := by exact_mod_cast hmantissa
    push_cast
    rw [zpow_add₀ two_ne_zero]
    gcongr
  rw [fittingExponent_eq (ratio_fst_pos h) (ratio_snd_pos x), ratio_eq_magnitude, magnitude]
  rcases hnormal with hfull | hsub
  · have hlow : 52 + x.exponent ≤ Int.log 2 (x.mantissa * 2 ^ x.exponent : ℚ) := by
      refine (Int.zpow_le_iff_le_log one_lt_two hpos).1 ?_
      have hle : (2 : ℚ) ^ (52 : Int) ≤ x.mantissa := by exact_mod_cast hfull
      push_cast
      rw [zpow_add₀ two_ne_zero]
      gcongr
    omega
  · omega

/-- A double is the one nearest to itself. -/
theorem ofRatio?_ratio {x : Binary64} (h : x.mantissa ≠ 0) : ofRatio? x.negative x.ratio.1 x.ratio.2 = some x := by
  have hmantissa : roundedQuotient (x.ratio.1 * (power 2 x.exponent).2) (x.ratio.2 * (power 2 x.exponent).1) =
      x.mantissa := by
    have hpos : 0 < x.ratio.2 * (power 2 x.exponent).1 :=
      Nat.mul_pos (ratio_snd_pos x) (power_fst_pos two_pos _)
    have hcross : x.ratio.1 * (power 2 x.exponent).2 * 1 = x.mantissa * (x.ratio.2 * (power 2 x.exponent).1) := by
      unfold ratio
      ring
    rw [roundedQuotient_congr hpos Nat.one_pos hcross]
    simp [roundedQuotient, Nat.mod_one]
  have hlt : x.mantissa ≠ Nat.pow 2 53 := Nat.ne_of_lt x.isCanonical.1
  unfold ofRatio?
  simp only [fittingExponent_ratio h, hmantissa]
  rw [if_neg hlt, make?, dif_pos x.isCanonical]

/-! ### Decimals -/

@[simp] theorem ofDecimal?_zero (exponent : Int) : ofDecimal? negative 0 exponent = some (zero negative) := by
  simp [ofDecimal?]

theorem digitCount_mul_pow {digits : Nat} (h : 0 < digits) (k : Nat) :
    digitCount (digits * 10 ^ k) = digitCount digits + k := by
  induction k with
  | zero => rw [Nat.pow_zero, Nat.mul_one, Nat.add_zero]
  | succ k ih =>
    have hpos : 0 < digits * 10 ^ k := Nat.mul_pos h (Nat.pow_pos (by decide))
    have hsplit := Nat.toDigits_append_toDigits (b := 10) (d := 0) (by decide) hpos (by decide)
    have hdigits : 10 * (digits * 10 ^ k) + 0 = digits * 10 ^ (k + 1) := by
      rw [Nat.pow_succ]
      ring
    rw [hdigits] at hsplit
    unfold digitCount at ih ⊢
    rw [← hsplit, List.length_append, ih, Nat.toDigits_zero]
    rfl

theorem digitCount_le_iff {n k : Nat} (h : 0 < k) : digitCount n ≤ k ↔ n < 10 ^ k :=
  Nat.length_toDigits_le_iff (by decide) h

/-- Zeros may move between the digits of a decimal and its exponent. -/
theorem ofDecimal?_shift (digits k : Nat) (exponent : Int) :
    ofDecimal? negative (digits * 10 ^ k) (exponent - k) = ofDecimal? negative digits exponent := by
  rcases Nat.eq_zero_or_pos digits with rfl | hdigits
  · rw [Nat.zero_mul, ofDecimal?_zero, ofDecimal?_zero]
  have hpos : 0 < digits * 10 ^ k := Nat.mul_pos hdigits (Nat.pow_pos (by decide))
  have hplaces : (digitCount (digits * 10 ^ k) : Int) + (exponent - k) = digitCount digits + exponent := by
    rw [digitCount_mul_pow hdigits]
    omega
  have hscale : digits * 10 ^ k * (power 10 (exponent - k)).1 * (power 10 exponent).2 =
      digits * (power 10 exponent).1 * (power 10 (exponent - k)).2 := by
    rw [← Nat.cast_inj (R := ℚ)]
    push_cast
    rw [power_fst_eq (by decide), power_fst_eq (by decide), Nat.cast_ofNat, zpow_sub₀ (by norm_num), zpow_natCast]
    field_simp
  unfold ofDecimal?
  simp only [hplaces, hpos.ne', hdigits.ne', false_or]
  rw [ofRatio?_congr (Nat.mul_pos hpos (power_fst_pos (by decide) _)) (power_snd_pos (by decide) _)
    (power_snd_pos (by decide) _) hscale]

/-! ### The exact expansion -/

/-- Powers of two are a little below those of ten. -/
private theorem two_pow_le_ten_pow (n : Nat) : 2 ^ (93 * n) ≤ 10 ^ (28 * n) := by
  rw [Nat.pow_mul, Nat.pow_mul]
  exact Nat.pow_le_pow_left (by norm_num) n

theorem two_pow_lt_ten_pow {n k : Nat} (hn : n ≤ 1024) (hk : 28 * 11 + 2 ≤ k) : 2 ^ n < 10 ^ k :=
  calc 2 ^ n ≤ 2 ^ (93 * 11 + 1) := Nat.pow_le_pow_right two_pos hn
    _ = 2 ^ (93 * 11) * 2 := pow_succ 2 (93 * 11)
    _ ≤ 10 ^ (28 * 11) * 2 := Nat.mul_le_mul_right 2 (two_pow_le_ten_pow 11)
    _ < 10 ^ (28 * 11) * 10 ^ 2 := Nat.mul_lt_mul_of_pos_left (by decide) (by positivity)
    _ = 10 ^ (28 * 11 + 2) := (pow_add 10 (28 * 11) 2).symm
    _ ≤ 10 ^ k := pow_right_mono₀ (by decide) hk

private theorem two_pow_le_of_le {n k : Nat} (hn : n ≤ 1074) (hk : 28 * 11 + 23 ≤ k) : 2 ^ n ≤ 10 ^ k :=
  calc 2 ^ n ≤ 2 ^ (93 * 11 + 51) := Nat.pow_le_pow_right two_pos hn
    _ = 2 ^ (93 * 11) * 2 ^ 51 := pow_add 2 (93 * 11) 51
    _ ≤ 10 ^ (28 * 11) * 10 ^ 23 := Nat.mul_le_mul (two_pow_le_ten_pow 11) (by norm_num)
    _ = 10 ^ (28 * 11 + 23) := (pow_add 10 (28 * 11) 23).symm
    _ ≤ 10 ^ k := pow_right_mono₀ (by decide) hk

/-- The expansion has no more places than can be read. -/
private theorem places_expansion_le (x : Binary64) :
    (digitCount x.expansion.digits : Int) + x.expansion.exponent ≤ 310 := by
  obtain ⟨hmantissa, -, hgreatest, -⟩ := x.isCanonical
  unfold expansion
  split
  · rename_i hnonneg
    have hlt : x.mantissa * Nat.pow 2 x.exponent.toNat < 10 ^ 310 :=
      calc x.mantissa * Nat.pow 2 x.exponent.toNat < 2 ^ 53 * 2 ^ x.exponent.toNat :=
            Nat.mul_lt_mul_of_pos_right hmantissa (Nat.pow_pos two_pos)
        _ = 2 ^ (53 + x.exponent.toNat) := (Nat.pow_add 2 53 _).symm
        _ < 10 ^ 310 := two_pow_lt_ten_pow (by omega) (le_refl 310)
    have hcount := (digitCount_le_iff (by decide)).2 hlt
    simp only
    omega
  · rename_i hneg
    have hlt : x.mantissa * Nat.pow 5 (-x.exponent).toNat < 10 ^ (310 + (-x.exponent).toNat) :=
      calc x.mantissa * Nat.pow 5 (-x.exponent).toNat < 10 ^ 310 * 5 ^ (-x.exponent).toNat :=
            Nat.mul_lt_mul_of_pos_right (hmantissa.trans (two_pow_lt_ten_pow (by decide) (le_refl 310)))
              (Nat.pow_pos (by decide))
        _ ≤ 10 ^ 310 * 10 ^ (-x.exponent).toNat :=
            Nat.mul_le_mul_left _ (Nat.pow_le_pow_left (by decide) _)
        _ = 10 ^ (310 + (-x.exponent).toNat) := by rw [← Nat.pow_add]
    have hcount := (digitCount_le_iff (by omega)).2 hlt
    simp only
    omega

/-- The expansion is not so small that it would be read as zero. -/
private theorem le_places_expansion {x : Binary64} (h : x.mantissa ≠ 0) :
    -330 ≤ (digitCount x.expansion.digits : Int) + x.expansion.exponent := by
  obtain ⟨-, hleast, -, -⟩ := x.isCanonical
  unfold expansion
  split
  · simp only
    omega
  · rename_i hneg
    simp only
    obtain ⟨k, hk⟩ : ∃ k : Nat, x.exponent = -(k : Int) := ⟨(-x.exponent).toNat, by omega⟩
    have hk' : (-x.exponent).toNat = k := by omega
    rw [hk']
    rcases Nat.lt_or_ge 331 k with hlarge | hsmall
    · have hge : 10 ^ (k - 331) ≤ x.mantissa * Nat.pow 5 k := by
        refine Nat.le_of_mul_le_mul_right (c := 10 ^ 331) ?_ (by positivity)
        calc 10 ^ (k - 331) * 10 ^ 331 = 10 ^ k := by rw [← Nat.pow_add, Nat.sub_add_cancel hlarge.le]
          _ = 5 ^ k * 2 ^ k := Nat.mul_pow 5 2 k
          _ ≤ 5 ^ k * 10 ^ 331 := Nat.mul_le_mul_left _ (two_pow_le_of_le (by omega) (le_refl 331))
          _ ≤ x.mantissa * Nat.pow 5 k * 10 ^ 331 :=
            Nat.mul_le_mul_right _ (Nat.le_mul_of_pos_left _ (Nat.pos_of_ne_zero h))
      have hcount : k - 331 < digitCount (x.mantissa * Nat.pow 5 k) :=
        Nat.lt_of_not_le fun hle => Nat.not_lt.2 hge ((digitCount_le_iff (by omega)).1 hle)
      omega
    · have hcount : 0 < digitCount (x.mantissa * Nat.pow 5 k) := Nat.length_toDigits_pos
      omega

theorem expansion_digits_pos {x : Binary64} (h : x.mantissa ≠ 0) : 0 < x.expansion.digits := by
  have hpos := Nat.pos_of_ne_zero h
  unfold expansion
  split
  · exact Nat.mul_pos hpos (Nat.pow_pos two_pos)
  · exact Nat.mul_pos hpos (Nat.pow_pos (by decide))

/-- The expansion is the value of the double. -/
private theorem expansion_eq_ratio (x : Binary64) :
    x.expansion.digits * (power 10 x.expansion.exponent).1 * x.ratio.2 =
      x.ratio.1 * (power 10 x.expansion.exponent).2 := by
  unfold expansion ratio power
  by_cases hnonneg : 0 ≤ x.exponent
  · simp [hnonneg]
  · have hten : Nat.pow 10 (-x.exponent).toNat = Nat.pow 5 (-x.exponent).toNat * Nat.pow 2 (-x.exponent).toNat :=
      Nat.mul_pow 5 2 _
    simp only [hnonneg, if_false, hten]
    ring

theorem ofDecimal?_expansion {x : Binary64} (h : x.mantissa ≠ 0) :
    ofDecimal? x.negative x.expansion.digits x.expansion.exponent = some x := by
  have hpos := expansion_digits_pos h
  unfold ofDecimal?
  simp only [hpos.ne', false_or, if_neg (not_lt.2 (le_places_expansion h)), if_neg (not_lt.2 (places_expansion_le x))]
  rw [ofRatio?_congr (Nat.mul_pos hpos (power_fst_pos (by decide) _)) (power_snd_pos (by decide) _) (ratio_snd_pos x)
    (expansion_eq_ratio x)]
  exact ofRatio?_ratio h

/-! ### The shortest digits -/

theorem ofDecimal?_withoutZeros (fuel : Nat) (d : Decimal) :
    ofDecimal? negative (Decimal.withoutZeros fuel d).digits (Decimal.withoutZeros fuel d).exponent =
      ofDecimal? negative d.digits d.exponent := by
  induction fuel generalizing d with
  | zero => rfl
  | succ fuel ih =>
    unfold Decimal.withoutZeros
    split
    · rename_i hzero
      have hdigits : d.digits / 10 * 10 ^ 1 = d.digits := by
        rw [Nat.pow_one]
        exact Nat.div_mul_cancel (Nat.dvd_of_mod_eq_zero hzero.2)
      have hexponent : d.exponent + 1 - ((1 : Nat) : Int) = d.exponent := Int.add_sub_cancel _ _
      rw [ih, ← ofDecimal?_shift (d.digits / 10) 1 (d.exponent + 1), hdigits, hexponent]
    · rfl

/-- The shortest digits are, but for zeros, digits that are rounded to the double or else the expansion. -/
private theorem shortest_eq (x : Binary64) :
    ∃ fuel d, x.shortest = Decimal.withoutZeros fuel d ∧ (x.isNearest d = true ∨ d = x.expansion) := by
  refine ⟨_, _, rfl, ?_⟩
  cases hfound : (List.range 17).findSome? fun (k : Nat) => x.onGrid? (x.wholePlaces - (k + 1)) with
  | none => exact .inr rfl
  | some found =>
    obtain ⟨k, -, hgrid⟩ := List.exists_of_findSome?_eq_some hfound
    exact .inl (List.find?_some hgrid)

/-- The digits that are written for a double are rounded to it. -/
theorem ofDecimal?_shortest {x : Binary64} (h : x.mantissa ≠ 0) :
    ofDecimal? x.negative x.shortest.digits x.shortest.exponent = some x := by
  obtain ⟨fuel, d, hshortest, hd⟩ := shortest_eq x
  rw [hshortest, ofDecimal?_withoutZeros]
  rcases hd with hnearest | rfl
  · exact beq_iff_eq.1 hnearest
  · exact ofDecimal?_expansion h

theorem shortest_digits_pos {x : Binary64} (h : x.mantissa ≠ 0) : 0 < x.shortest.digits := by
  refine Nat.pos_of_ne_zero fun hzero => h ?_
  have hread := ofDecimal?_shortest h
  rw [hzero, ofDecimal?_zero] at hread
  rw [← Option.some.inj hread]
  rfl

end PageBindings.Binary64
