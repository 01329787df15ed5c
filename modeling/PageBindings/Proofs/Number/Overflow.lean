import PageBindings.Proofs.Number.Rounding

/-!
# Numbers beyond the largest double

The largest double is `(2^53 - 1) · 2^971`.  A number is rounded to a double exactly if it is less than half a unit in
the last place above it (`ofRatio?_eq_none_iff`).
-/

namespace PageBindings.Binary64

variable {num den : Nat} {negative : Bool}

/-- Numbers from here on are nearest to a number that would need a greater exponent. -/
def overflowBound : ℚ :=
  (2 ^ 54 - 1) * 2 ^ (970 : Int)

private theorem two_pow_le_overflowBound : (2 : ℚ) ^ (1023 : Int) ≤ overflowBound :=
  calc (2 : ℚ) ^ (1023 : Int) = 2 ^ (53 : Int) * 2 ^ (970 : Int) := zpow_add₀ two_ne_zero 53 970
    _ ≤ (2 ^ 54 - 1) * 2 ^ (970 : Int) := by
        gcongr
        norm_num

private theorem overflowBound_lt_two_pow : overflowBound < (2 : ℚ) ^ (1024 : Int) :=
  calc ((2 : ℚ) ^ 54 - 1) * 2 ^ (970 : Int) < 2 ^ (54 : Int) * 2 ^ (970 : Int) := by
        gcongr
        norm_num
    _ = (2 : ℚ) ^ (1024 : Int) := (zpow_add₀ two_ne_zero 54 970).symm

theorem overflowBound_pos : 0 < overflowBound :=
  lt_of_lt_of_le (zpow_pos two_pos 1023) two_pow_le_overflowBound

/-- Integers of 64 bits are far from the bound. -/
theorem natCast_lt_overflowBound {n : Nat} (h : n ≤ 2 ^ 64) : (n : ℚ) < overflowBound :=
  calc (n : ℚ) ≤ ((2 ^ 64 : Nat) : ℚ) := Nat.cast_le.2 h
    _ = 2 ^ (64 : Int) := by norm_num
    _ < 2 ^ (1023 : Int) := zpow_lt_zpow_right₀ one_lt_two (by decide)
    _ ≤ overflowBound := two_pow_le_overflowBound

/-! ### Rounded quotients -/

private theorem le_roundedQuotient {m : Nat} (hden : 0 < den) (h : m * den ≤ num) : m ≤ roundedQuotient num den := by
  have hquotient : m ≤ num / den := (Nat.le_div_iff_mul_le hden).2 h
  unfold roundedQuotient
  dsimp only
  split
  · exact hquotient
  · exact Nat.le_succ_of_le hquotient

private theorem roundedQuotient_le {m : Nat} (hden : 0 < den) (h : num < m * den) : roundedQuotient num den ≤ m := by
  have hquotient : num / den < m := (Nat.div_lt_iff_lt_mul hden).2 h
  unfold roundedQuotient
  dsimp only
  split
  · exact hquotient.le
  · exact hquotient

/-- Halfway above an odd number one rounds up. -/
private theorem lt_roundedQuotient_iff {m : Nat} (hodd : m % 2 = 1) (hden : 0 < den) :
    m < roundedQuotient num den ↔ (2 * m + 1) * den ≤ 2 * num := by
  have hsplit : (num / den) * den + num % den = num := Nat.div_add_mod' num den
  have hrest : num % den < den := Nat.mod_lt num hden
  rcases Nat.lt_trichotomy (num / den) m with hlt | heq | hgt
  · have hround : roundedQuotient num den ≤ m := roundedQuotient_le hden ((Nat.div_lt_iff_lt_mul hden).1 hlt)
    have hnum : num < m * den := (Nat.div_lt_iff_lt_mul hden).1 hlt
    constructor
    · intro h
      omega
    · intro h
      rw [Nat.add_mul, Nat.mul_assoc] at h
      omega
  · rw [heq] at hsplit
    have htwice : (2 * m + 1) * den ≤ 2 * num ↔ den ≤ 2 * (num % den) := by
      rw [Nat.add_mul, Nat.mul_assoc]
      omega
    unfold roundedQuotient
    simp only [heq, hodd]
    rw [htwice]
    split
    · rename_i hdown
      simp only [Bool.or_eq_true, decide_eq_true_eq, Bool.and_eq_true, beq_iff_eq, one_ne_zero, and_false,
        or_false] at hdown
      omega
    · rename_i hup
      simp only [Bool.or_eq_true, decide_eq_true_eq, Bool.and_eq_true, beq_iff_eq, one_ne_zero, and_false,
        or_false] at hup
      omega
  · have hnum : (m + 1) * den ≤ num := (Nat.le_div_iff_mul_le hden).1 hgt
    have hround : m + 1 ≤ roundedQuotient num den := le_roundedQuotient hden hnum
    constructor
    · intro _
      rw [Nat.add_mul] at hnum ⊢
      rw [Nat.mul_assoc]
      omega
    · intro _
      exact hround

/-! ### Fractions -/

private theorem mul_power_le_iff (hden : 0 < den) (k l : Nat) (exponent : Int) :
    k * (den * (power 2 exponent).1) ≤ l * (num * (power 2 exponent).2) ↔
      (k : ℚ) * 2 ^ exponent ≤ l * (num / den) := by
  have hdenQ : (0 : ℚ) < den := Nat.cast_pos.2 hden
  have hscale : (0 : ℚ) < (power 2 exponent).2 := Nat.cast_pos.2 (power_snd_pos two_pos exponent)
  have hpower := power_fst_eq two_pos exponent
  have hleft : (k : ℚ) * (den * (2 ^ exponent * (power 2 exponent).2)) =
      k * 2 ^ exponent * den * (power 2 exponent).2 := by
    ring
  rw [← Nat.cast_le (α := ℚ)]
  push_cast at hpower ⊢
  rw [hpower, hleft, ← mul_assoc (l : ℚ), mul_le_mul_iff_left₀ hscale, ← mul_div_assoc, le_div_iff₀ hdenQ]

theorem make?_eq_none_iff {mantissa : Nat} {exponent : Int} :
    make? negative mantissa exponent = none ↔ ¬ IsCanonical mantissa exponent := by
  unfold make?
  split <;> simp [*]

/-- What is known of the mantissa at the fitting exponent. -/
private theorem mantissa_fits (hnum : 0 < num) (hden : 0 < den) {exponent : Int}
    (h : fittingExponent num den = exponent) :
    roundedQuotient (num * (power 2 exponent).2) (den * (power 2 exponent).1) ≤ 2 ^ 53 ∧
      (2 ^ 52 ≤ roundedQuotient (num * (power 2 exponent).2) (den * (power 2 exponent).1) ∨ exponent = -1074) := by
  have hpos : (0 : ℚ) < num / den := div_pos (Nat.cast_pos.2 hnum) (Nat.cast_pos.2 hden)
  have hdenScaled : 0 < den * (power 2 exponent).1 := Nat.mul_pos hden (power_fst_pos two_pos exponent)
  rw [fittingExponent_eq hnum hden] at h
  constructor
  · refine roundedQuotient_le hdenScaled (Nat.lt_of_not_le fun hle => ?_)
    have hle' := (mul_power_le_iff hden (2 ^ 53) 1 exponent).1 (by rw [Nat.one_mul]; exact hle)
    have hlog : (53 : Int) + exponent ≤ Int.log 2 ((num : ℚ) / den) := by
      refine (Int.zpow_le_iff_le_log one_lt_two hpos).1 ?_
      rw [Nat.cast_pow, Nat.cast_ofNat, Nat.cast_one, one_mul] at hle'
      rw [Nat.cast_ofNat, zpow_add₀ two_ne_zero]
      exact_mod_cast hle'
    omega
  · rcases eq_or_ne exponent (-1074) with hleast | hgreater
    · exact .inr hleast
    · left
      refine le_roundedQuotient hdenScaled ?_
      rw [← Nat.one_mul (num * _), mul_power_le_iff hden]
      have hlog : (52 : Int) + exponent ≤ Int.log 2 ((num : ℚ) / den) := by omega
      have hle := (Int.zpow_le_iff_le_log one_lt_two hpos).2 hlog
      rw [Nat.cast_ofNat, zpow_add₀ two_ne_zero] at hle
      rw [Nat.cast_pow, Nat.cast_ofNat, Nat.cast_one, one_mul]
      exact_mod_cast hle

/-- In the last binade a mantissa is rounded up to a full one exactly from the bound on. -/
private theorem roundedQuotient_eq_full_iff (hden : 0 < den)
    (hle : roundedQuotient (num * (power 2 971).2) (den * (power 2 971).1) ≤ 2 ^ 53) :
    roundedQuotient (num * (power 2 971).2) (den * (power 2 971).1) = 2 ^ 53 ↔ overflowBound ≤ num / den := by
  have hround : 2 ^ 53 - 1 < roundedQuotient (num * (power 2 971).2) (den * (power 2 971).1) ↔
      (2 * (2 ^ 53 - 1) + 1) * (den * (power 2 971).1) ≤ 2 * (num * (power 2 971).2) :=
    lt_roundedQuotient_iff (by decide) (Nat.mul_pos hden (power_fst_pos two_pos 971))
  rw [mul_power_le_iff hden] at hround
  have hdouble : ((2 * (2 ^ 53 - 1) + 1 : Nat) : ℚ) * 2 ^ (971 : Int) = (2 : Nat) * overflowBound := by
    have hnext : (2 : ℚ) ^ (971 : Int) = 2 ^ (1 : Int) * 2 ^ (970 : Int) := zpow_add₀ two_ne_zero 1 970
    have hodd : ((2 * (2 ^ 53 - 1) + 1 : Nat) : ℚ) = 2 ^ 54 - 1 := by norm_num
    rw [hnext, hodd, overflowBound, zpow_one, mul_left_comm, Nat.cast_ofNat]
  have hbound : overflowBound ≤ num / den ↔
      ((2 * (2 ^ 53 - 1) + 1 : Nat) : ℚ) * 2 ^ (971 : Int) ≤ (2 : Nat) * (num / den) := by
    rw [hdouble, mul_le_mul_iff_right₀ (by norm_num)]
  rw [hbound, ← hround]
  omega

theorem ofRatio?_eq_none_iff (hnum : 0 < num) (hden : 0 < den) :
    ofRatio? negative num den = none ↔ overflowBound ≤ num / den := by
  have hpos : (0 : ℚ) < num / den := div_pos (Nat.cast_pos.2 hnum) (Nat.cast_pos.2 hden)
  have hfitting := fittingExponent_eq hnum hden
  obtain ⟨exponent, hexponent⟩ : ∃ exponent, fittingExponent num den = exponent := ⟨_, rfl⟩
  obtain ⟨hle, hnormal⟩ := mantissa_fits hnum hden hexponent
  obtain ⟨mantissa, hmantissa⟩ :
      ∃ m, roundedQuotient (num * (power 2 exponent).2) (den * (power 2 exponent).1) = m := ⟨_, rfl⟩
  have hlast : exponent = 971 → (mantissa = 2 ^ 53 ↔ overflowBound ≤ num / den) := by
    rintro rfl
    rw [← hmantissa]
    exact roundedQuotient_eq_full_iff hden hle
  rw [hmantissa] at hle hnormal
  have hnone : ofRatio? negative num den = none ↔ 972 ≤ exponent ∨ exponent = 971 ∧ mantissa = 2 ^ 53 := by
    have hfull : Nat.pow 2 53 = 2 ^ 53 := rfl
    have hhalf : Nat.pow 2 52 = 2 ^ 52 := rfl
    unfold ofRatio?
    simp only [hexponent, hmantissa]
    split
    · rw [make?_eq_none_iff, IsCanonical]
      omega
    · rw [make?_eq_none_iff, IsCanonical]
      omega
  rw [hnone]
  constructor
  · rintro (hlarge | ⟨heq, hfull⟩)
    · have hlog : (1024 : Int) ≤ Int.log 2 ((num : ℚ) / den) := by omega
      exact overflowBound_lt_two_pow.le.trans ((Int.zpow_le_iff_le_log one_lt_two hpos).2 hlog)
    · exact (hlast heq).1 hfull
  · intro hbound
    have hlog := (Int.zpow_le_iff_le_log one_lt_two hpos).1 (two_pow_le_overflowBound.trans hbound)
    rcases lt_or_ge exponent 972 with hsmall | hlarge
    · have heq : exponent = 971 := by omega
      exact .inr ⟨heq, (hlast heq).2 hbound⟩
    · exact .inl hlarge

/-! ### What the nearest double is worth -/

variable {x : Binary64}

theorem magnitude_of_ofRatio? (h : ofRatio? negative num den = some x) :
    x.magnitude = roundedQuotient (num * (power 2 (fittingExponent num den)).2)
      (den * (power 2 (fittingExponent num den)).1) * 2 ^ fittingExponent num den := by
  have hfields : ∀ {mantissa : Nat} {exponent : Int}, make? negative mantissa exponent = some x →
      x.magnitude = mantissa * 2 ^ exponent := by
    intro mantissa exponent hmake
    unfold make? at hmake
    split at hmake
    · obtain rfl := Option.some.inj hmake
      rfl
    · simp at hmake
  unfold ofRatio? at h
  dsimp only at h
  split at h
  · rename_i hfull
    have htwice : (2 : ℚ) ^ (fittingExponent num den + 1) = 2 * 2 ^ fittingExponent num den := by
      rw [zpow_add₀ two_ne_zero, zpow_one, mul_comm]
    rw [hfields h, hfull, htwice]
    norm_num
    ring
  · exact hfields h

/-- A fraction that is not less than one is not rounded to less. -/
theorem one_le_magnitude (hden : 0 < den) (hle : den ≤ num) (h : ofRatio? negative num den = some x) :
    1 ≤ x.magnitude := by
  have hvalue : (1 : ℚ) ≤ num / den := (one_le_div (Nat.cast_pos.2 hden)).2 (Nat.cast_le.2 hle)
  rw [magnitude_of_ofRatio? h]
  obtain ⟨exponent, hexponent⟩ : ∃ exponent, fittingExponent num den = exponent := ⟨_, rfl⟩
  rw [hexponent]
  rcases le_or_gt 0 exponent with hnonneg | hneg
  · -- the mantissa is a full one
    have hfull := (mantissa_fits (hden.trans_le hle) hden hexponent).2.resolve_right (by omega)
    have hmantissa : (1 : ℚ) ≤ roundedQuotient (num * (power 2 exponent).2) (den * (power 2 exponent).1) :=
      Nat.one_le_cast.2 (Nat.one_le_two_pow.trans hfull)
    exact one_le_mul_of_one_le_of_one_le hmantissa (one_le_zpow₀ one_le_two hnonneg)
  · obtain ⟨k, rfl⟩ : ∃ k : Nat, exponent = -(k : Int) := ⟨(-exponent).toNat, by omega⟩
    have hone : ((2 ^ k : Nat) : ℚ) * 2 ^ (-(k : Int)) = 1 := by
      rw [Nat.cast_pow, Nat.cast_ofNat, ← zpow_natCast, ← zpow_add₀ two_ne_zero, add_neg_cancel, zpow_zero]
    have hscaled : 2 ^ k * (den * (power 2 (-(k : Int))).1) ≤ 1 * (num * (power 2 (-(k : Int))).2) := by
      rw [mul_power_le_iff hden, hone, Nat.cast_one, one_mul]
      exact hvalue
    rw [Nat.one_mul] at hscaled
    rw [← hone]
    gcongr
    exact le_roundedQuotient (Nat.mul_pos hden (power_fst_pos two_pos _)) hscaled

end PageBindings.Binary64
