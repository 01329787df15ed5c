import PageBindings.Number.Reading
import PageBindings.Proofs.Number.Overflow

/-!
# What decimals are read as

A decimal is refused exactly if the product of its digits and its power of ten, each of them rounded, is beyond the
largest double (`ofParts?_eq_none_iff`); dividing by a power never fails.  Digits below `2^53` and powers up to
`10^22` are doubles themselves.  Then only the product or quotient is rounded, and the nearest double is read
(`ofParts?_eq_ofDecimal?`).
-/

namespace PageBindings

namespace Binary64

variable {num den num' den' : Nat} {negative : Bool} {x y : Binary64}

theorem magnitude_zero (negative : Bool) : (zero negative).magnitude = 0 := by
  simp [magnitude, zero]

theorem magnitude_nonneg (x : Binary64) : 0 ≤ x.magnitude :=
  mul_nonneg (Nat.cast_nonneg _) (zpow_nonneg two_pos.le _)

theorem mantissa_pos_of_magnitude_pos (h : 0 < x.magnitude) : 0 < x.mantissa := by
  refine Nat.pos_of_ne_zero fun hzero => ?_
  rw [magnitude, hzero] at h
  simp at h

/-- Doubles are finite. -/
theorem magnitude_lt_overflowBound (x : Binary64) : x.magnitude < overflowBound := by
  obtain ⟨hmantissa, -, hgreatest, -⟩ := x.isCanonical
  have hnext : (2 : ℚ) ^ (971 : Int) = 2 * 2 ^ (970 : Int) := zpow_add₀ two_ne_zero 1 970
  have hle : (x.mantissa : ℚ) ≤ 2 ^ 53 - 1 := by
    have hsucc : x.mantissa + 1 ≤ 2 ^ 53 := hmantissa
    rw [le_sub_iff_add_le]
    exact_mod_cast hsucc
  calc x.magnitude ≤ (2 ^ 53 - 1) * 2 ^ (971 : Int) :=
        mul_le_mul hle (zpow_le_zpow_right₀ one_le_two hgreatest) (zpow_nonneg two_pos.le _) (by norm_num)
    _ = (2 ^ 54 - 2) * 2 ^ (970 : Int) := by
        rw [hnext]
        ring
    _ < overflowBound := by
        unfold overflowBound
        gcongr
        norm_num

/-! ### The nearest double -/

theorem nearest?_eq_none_iff (hden : 0 < den) : nearest? num den = none ↔ overflowBound ≤ num / den := by
  unfold nearest?
  split
  · rename_i hzero
    simp [hzero, overflowBound_pos]
  · rename_i hne
    exact ofRatio?_eq_none_iff (Nat.pos_of_ne_zero hne) hden

theorem exists_nearest? (hden : 0 < den) (h : (num : ℚ) / den < overflowBound) : ∃ x, nearest? num den = some x := by
  rw [← Option.isSome_iff_exists, ← Option.ne_none_iff_isSome, Ne, nearest?_eq_none_iff hden, not_le]
  exact h

theorem exists_nearest?_one (h : num ≤ 2 ^ 64) : ∃ x, nearest? num 1 = some x := by
  refine exists_nearest? Nat.one_pos ?_
  rw [Nat.cast_one, div_one]
  exact natCast_lt_overflowBound h

theorem one_le_magnitude_of_nearest? (hden : 0 < den) (hle : den ≤ num) (h : nearest? num den = some x) :
    1 ≤ x.magnitude := by
  rw [nearest?, if_neg (hden.trans_le hle).ne'] at h
  exact one_le_magnitude hden hle h

/-- The nearest double depends on the value of the fraction only. -/
theorem nearest?_congr (hden : 0 < den) (hden' : 0 < den') (h : (num : ℚ) / den = num' / den') :
    nearest? num den = nearest? num' den' := by
  have hcross : num * den' = num' * den := by
    rw [div_eq_div_iff (Nat.cast_ne_zero.2 hden.ne') (Nat.cast_ne_zero.2 hden'.ne')] at h
    exact_mod_cast h
  unfold nearest?
  rcases Nat.eq_zero_or_pos num with rfl | hnum
  · obtain rfl : num' = 0 := by simpa [hden.ne'] using hcross.symm
    rfl
  · have hnum' : 0 < num' := Nat.pos_of_mul_pos_right (hcross ▸ Nat.mul_pos hnum hden')
    rw [if_neg hnum.ne', if_neg hnum'.ne', ofRatio?_congr hnum hden hden' hcross]

private theorem roundedQuotient_mul_self (hden : 0 < den) (q : Nat) : roundedQuotient (den * q) den = q := by
  simp [roundedQuotient, hden]

/-- Numbers of 53 bits and their multiples by powers of two are doubles. -/
theorem magnitude_of_nearest?_mul_pow {m k : Nat} (hm : m < 2 ^ 53) (h : nearest? (m * 2 ^ k) 1 = some x) :
    x.magnitude = m * 2 ^ k := by
  rcases Nat.eq_zero_or_pos m with rfl | hpos
  · rw [Nat.zero_mul, nearest?, if_pos rfl] at h
    rw [← Option.some.inj h, magnitude_zero, Nat.cast_zero, zero_mul]
  have hnum : 0 < m * 2 ^ k := Nat.mul_pos hpos (Nat.two_pow_pos k)
  rw [nearest?, if_neg hnum.ne'] at h
  rw [magnitude_of_ofRatio? h]
  obtain ⟨exponent, hexponent⟩ : ∃ exponent, fittingExponent (m * 2 ^ k) 1 = exponent := ⟨_, rfl⟩
  rw [hexponent]
  have hle : exponent ≤ k := by
    have hvalue : ((m * 2 ^ k : Nat) : ℚ) / (1 : Nat) < 2 ^ (53 + k : Int) := by
      rw [Nat.cast_one, div_one, zpow_add₀ two_ne_zero, zpow_natCast, Nat.cast_mul, Nat.cast_pow, Nat.cast_ofNat]
      gcongr
      exact_mod_cast hm
    have hlog := (Int.lt_zpow_iff_log_lt one_lt_two (by positivity)).1 hvalue
    rw [← hexponent, fittingExponent_eq hnum Nat.one_pos]
    omega
  -- so the exponent takes nothing off that is not zero
  obtain ⟨q, hq⟩ : (power 2 exponent).1 ∣ m * 2 ^ k * (power 2 exponent).2 := by
    unfold power
    split
    · have hpow : exponent.toNat ≤ k := by omega
      simpa using (pow_dvd_pow 2 hpow).mul_left m
    · simp
  have hvalue : ((m * 2 ^ k : Nat) : ℚ) * (power 2 exponent).2 = (2 : Nat) ^ exponent * (power 2 exponent).2 * q := by
    rw [← power_fst_eq two_pos]
    exact_mod_cast hq
  have hsnd : ((power 2 exponent).2 : ℚ) ≠ 0 := Nat.cast_ne_zero.2 (power_snd_pos two_pos exponent).ne'
  rw [Nat.one_mul, hq, roundedQuotient_mul_self (power_fst_pos two_pos exponent)]
  refine mul_right_cancel₀ hsnd ?_
  push_cast at hvalue
  rw [hvalue]
  ring

/-! ### Products, quotients and powers of ten -/

theorem mul?_eq_nearest? (hden : 0 < den) (h : x.magnitude * y.magnitude = num / den) :
    x.mul? y = nearest? num den := by
  refine nearest?_congr (Nat.mul_pos (ratio_snd_pos x) (ratio_snd_pos y)) hden ?_
  rw [← h, ← ratio_eq_magnitude, ← ratio_eq_magnitude]
  push_cast
  exact (div_mul_div_comm _ _ _ _).symm

theorem mul?_eq_none_iff : x.mul? y = none ↔ overflowBound ≤ x.magnitude * y.magnitude := by
  rw [mul?, nearest?_eq_none_iff (Nat.mul_pos (ratio_snd_pos x) (ratio_snd_pos y)), ← ratio_eq_magnitude,
    ← ratio_eq_magnitude, div_mul_div_comm]
  push_cast
  rfl

private theorem div_eq_magnitude_div : ((x.ratio.1 * y.ratio.2 : Nat) : ℚ) / (x.ratio.2 * y.ratio.1 : Nat) =
    x.magnitude / y.magnitude := by
  rw [← ratio_eq_magnitude, ← ratio_eq_magnitude, div_div_div_eq]
  push_cast
  rfl

theorem div?_eq_nearest? (hy : 0 < y.magnitude) (hden : 0 < den) (h : x.magnitude / y.magnitude = num / den) :
    x.div? y = nearest? num den := by
  have hdenominator : 0 < x.ratio.2 * y.ratio.1 :=
    Nat.mul_pos (ratio_snd_pos x) (ratio_fst_pos (mantissa_pos_of_magnitude_pos hy).ne')
  exact nearest?_congr hdenominator hden (div_eq_magnitude_div.trans h)

/-- What is not less than one divides without overflow. -/
theorem exists_div? (x : Binary64) (hy : 1 ≤ y.magnitude) : ∃ q, x.div? y = some q := by
  have hdenominator : 0 < x.ratio.2 * y.ratio.1 :=
    Nat.mul_pos (ratio_snd_pos x) (ratio_fst_pos (mantissa_pos_of_magnitude_pos (one_pos.trans_le hy)).ne')
  refine exists_nearest? hdenominator ?_
  rw [div_eq_magnitude_div]
  exact (div_le_self (magnitude_nonneg x) hy).trans_lt (magnitude_lt_overflowBound x)

theorem exists_powerOfTen? {k : Nat} (h : k ≤ 308) : ∃ p, powerOfTen? k = some p ∧ 1 ≤ p.magnitude := by
  have hle : 10 ^ k ≤ 10 ^ 308 := by gcongr; decide
  have hlast : ((10 ^ 308 : Nat) : ℚ) < overflowBound := by
    have hnat : 10 ^ 308 < (2 ^ 54 - 1) * 2 ^ 970 := by decide +kernel
    have hbound : (((2 ^ 54 - 1) * 2 ^ 970 : Nat) : ℚ) = overflowBound := by
      rw [overflowBound, Nat.cast_mul, Nat.cast_pow, Nat.cast_ofNat, ← zpow_natCast]
      norm_num
    rw [← hbound]
    exact Nat.cast_lt.2 hnat
  have hfits : ((10 ^ k : Nat) : ℚ) / (1 : Nat) < overflowBound := by
    rw [Nat.cast_one, div_one]
    exact (Nat.cast_le.2 hle).trans_lt hlast
  obtain ⟨p, hp⟩ := exists_nearest? Nat.one_pos hfits
  refine ⟨p, ?_, one_le_magnitude_of_nearest? Nat.one_pos (Nat.one_le_pow _ _ (by decide)) hp⟩
  rw [powerOfTen?, if_pos h]
  exact hp

theorem exists_lowered? (times : Nat) (x : Binary64) : ∃ y, lowered? times x = some y := by
  induction times generalizing x with
  | zero => exact ⟨x, rfl⟩
  | succ times ih =>
    unfold lowered?
    split
    · exact ⟨x, rfl⟩
    · obtain ⟨p, hp, hone⟩ := exists_powerOfTen? (le_refl 308)
      obtain ⟨q, hq⟩ := exists_div? x hone
      obtain ⟨y, hy⟩ := ih q
      exact ⟨y, by simp [hp, hq, hy]⟩

theorem exists_overPower? (x : Binary64) (k : Nat) : ∃ y, x.overPower? k = some y := by
  obtain ⟨lowered, hlowered⟩ := exists_lowered? ((k - 1) / 308) x
  have hrest : k - 308 * ((k - 1) / 308) ≤ 308 := by omega
  obtain ⟨p, hp, hone⟩ := exists_powerOfTen? hrest
  obtain ⟨q, hq⟩ := exists_div? lowered hone
  exact ⟨q, by simp [overPower?, hlowered, hp, hq]⟩

private theorem magnitude_of_powerOfTen? {k : Nat} (hk : k ≤ 22) (h : powerOfTen? k = some x) :
    x.magnitude = 10 ^ k := by
  rw [powerOfTen?, if_pos (by omega), Nat.pow_eq, Nat.mul_pow 5 2 k] at h
  have hfive : 5 ^ k < 2 ^ 53 := (Nat.pow_le_pow_right (by decide) hk).trans_lt (by decide)
  rw [magnitude_of_nearest?_mul_pow hfive h]
  norm_num [← mul_pow]

end Binary64

open Binary64

/-! ### Decimals that are refused -/

/--
The decimal is read as infinite: its power of ten is beyond all doubles, or the product of the doubles nearest to its
digits and to its power is.
-/
def Decimal.Overflows (d : Decimal) : Prop :=
  d.digits ≠ 0 ∧ 308 < d.exponent ∨ 0 ≤ d.exponent ∧ ∃ digits power, nearest? d.digits 1 = some digits ∧
    powerOfTen? d.exponent.toNat = some power ∧ overflowBound ≤ digits.magnitude * power.magnitude

/-- Without a power of ten nothing is read as infinite. -/
theorem Decimal.not_overflows {d : Decimal} (h : d.exponent = 0) : ¬ d.Overflows := by
  rintro (⟨-, hlarge⟩ | ⟨-, digits, power, -, hpower, hbound⟩)
  · omega
  · rw [h] at hpower
    rw [magnitude_of_powerOfTen? (Nat.zero_le _) hpower, pow_zero, mul_one] at hbound
    exact absurd hbound (not_le.2 (magnitude_lt_overflowBound digits))

namespace Binary64

variable {negative : Bool} {d : Decimal}

theorem ofParts?_eq_none_iff (h : d.digits < 2 ^ 64) : ofParts? negative d = none ↔ d.Overflows := by
  obtain ⟨digits, hdigits⟩ := exists_nearest?_one h.le
  have hzero : digits.mantissa = 0 ↔ d.digits = 0 := by
    constructor
    · intro hmantissa
      by_contra hne
      have hone := one_le_magnitude_of_nearest? Nat.one_pos (Nat.one_le_iff_ne_zero.2 hne) hdigits
      exact (mantissa_pos_of_magnitude_pos (one_pos.trans_le hone)).ne' hmantissa
    · intro hne
      rw [hne, nearest?, if_pos rfl] at hdigits
      rw [← Option.some.inj hdigits]
      rfl
  rw [ofParts?, hdigits, Option.bind_some, Option.map_eq_none_iff, Decimal.Overflows, scaled?]
  simp only [hdigits, Option.some.injEq]
  split
  · rename_i hnonneg
    simp only [hnonneg, true_and, timesPower?, hzero]
    by_cases hnone : d.digits = 0
    · have hmagnitude : digits.magnitude = 0 := by rw [magnitude, hzero.2 hnone, Nat.cast_zero, zero_mul]
      simp [hnone, hmagnitude, overflowBound_pos]
    · rcases lt_or_ge 308 d.exponent with hlarge | hsmall
      · have hbeyond : ¬ d.exponent.toNat ≤ 308 := by omega
        simp [hnone, hlarge, powerOfTen?, hbeyond]
      · obtain ⟨p, hp, -⟩ := exists_powerOfTen? (k := d.exponent.toNat) (by omega)
        have hnot : ¬ 308 < d.exponent := not_lt.2 hsmall
        simp [hnone, hnot, hp, mul?_eq_none_iff]
  · rename_i hneg
    obtain ⟨y, hy⟩ := exists_overPower? digits (-d.exponent).toNat
    have hnot : ¬ 308 < d.exponent := by omega
    simp [hneg, hnot, hy]

/-! ### Short decimals -/

/-- The digits and the power are doubles, so that their product or quotient is the only one to be rounded. -/
private theorem scaled_eq_nearest? (hx : nearest? d.digits 1 = some x) (hdigits : d.digits < 2 ^ 53)
    (hexponent : d.exponent.natAbs ≤ 22) :
    x.scaled? d.exponent = nearest? (d.digits * (power 10 d.exponent).1) (power 10 d.exponent).2 := by
  have hvalue : x.magnitude = d.digits := by
    have hpow : d.digits * 2 ^ 0 = d.digits := Nat.mul_one _
    rw [magnitude_of_nearest?_mul_pow hdigits (hpow.symm ▸ hx), pow_zero, mul_one]
  unfold scaled? power
  split
  · rename_i hnonneg
    obtain ⟨p, hp, -⟩ := exists_powerOfTen? (k := d.exponent.toNat) (by omega)
    have hproduct : x.mul? p = nearest? (d.digits * Nat.pow 10 d.exponent.toNat) 1 := by
      refine mul?_eq_nearest? Nat.one_pos ?_
      rw [hvalue, magnitude_of_powerOfTen? (by omega) hp]
      simp
    rw [timesPower?, hp]
    split
    · rename_i hzero
      have hnone : d.digits = 0 := by
        rw [magnitude, hzero, Nat.cast_zero, zero_mul] at hvalue
        exact_mod_cast hvalue.symm
      rw [hnone] at hx ⊢
      simpa using hx.symm
    · exact hproduct
  · rename_i hneg
    have hsteps : ((-d.exponent).toNat - 1) / 308 = 0 := by omega
    obtain ⟨p, hp, -⟩ := exists_powerOfTen? (k := (-d.exponent).toNat) (by omega)
    have hpower := magnitude_of_powerOfTen? (by omega) hp
    have hquotient : x.div? p = nearest? (d.digits * 1) (Nat.pow 10 (-d.exponent).toNat) := by
      refine div?_eq_nearest? (hpower ▸ by positivity) (Nat.pow_pos (by decide)) ?_
      rw [hvalue, hpower]
      simp
    rw [overPower?, hsteps]
    simpa [lowered?, hp] using hquotient

private theorem ofRatio?_eq_map : ofRatio? negative num den =
    (ofRatio? false num den).map fun x => { x with negative } := by
  have hmake : ∀ mantissa exponent, make? negative mantissa exponent =
      (make? false mantissa exponent).map fun x => { x with negative } := by
    intro mantissa exponent
    unfold make?
    split <;> rfl
  unfold ofRatio?
  dsimp only
  split <;> exact hmake _ _

/-- Short decimals are read as the double nearest to them. -/
theorem ofParts?_eq_ofDecimal? (hdigits : d.digits < 2 ^ 53) (hexponent : d.exponent.natAbs ≤ 22) :
    ofParts? negative d = ofDecimal? negative d.digits d.exponent := by
  obtain ⟨x, hx⟩ := exists_nearest?_one (hdigits.le.trans (by decide))
  rw [ofParts?, hx, Option.bind_some, scaled_eq_nearest? hx hdigits hexponent]
  rcases Nat.eq_zero_or_pos d.digits with hzero | hpos
  · rw [hzero, ofDecimal?_zero, Nat.zero_mul, nearest?, if_pos rfl]
    rfl
  · have hcount : digitCount d.digits ≤ 16 := (digitCount_le_iff (by decide)).2 (hdigits.trans (by decide))
    have hcountPos : 0 < digitCount d.digits := Nat.length_toDigits_pos
    have hnum : 0 < d.digits * (power 10 d.exponent).1 := Nat.mul_pos hpos (power_fst_pos (by decide) _)
    have hlarge : ¬(310 < (digitCount d.digits : Int) + d.exponent) := by omega
    have hsmall : ¬(d.digits = 0 ∨ (digitCount d.digits : Int) + d.exponent < -330) := by omega
    rw [nearest?, if_neg hnum.ne', ofDecimal?, if_neg hsmall, if_neg hlarge]
    exact ofRatio?_eq_map.symm

end Binary64

end PageBindings
