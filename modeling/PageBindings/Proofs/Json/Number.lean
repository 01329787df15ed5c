import PageBindings.Json.Printer
import PageBindings.Json.Reader
import PageBindings.Proofs.Json.Numeral
import PageBindings.Proofs.Number.Reading

/-!
# The numerals of numbers

Every number is written as one numeral (`Number.numeral`), which determines it: the digits of an integer are its own,
and those of a double are rounded to it (`Number.numeral_injective`).  What is read from the numeral need not be the
number, as doubles are read with more than one rounding.  Those numbers that read back (`Number.ReadsBack`) are all
the integers (`readsBack_integer`), and of the doubles at least those of few digits and small exponents
(`readsBack_double`).
-/

namespace PageBindings.Json

open Numeral

variable {digits rest : List Char}

/-! ### The digits of a number -/

theorem isDigits_toDigits (n : Nat) : IsDigits (Nat.toDigits 10 n) :=
  ⟨Nat.toDigits_ne_nil, fun _ hc => Nat.isDigit_of_mem_toDigits (by decide) (by decide) hc⟩

theorem isDigits_append {more : List Char} (h : IsDigits digits) (hmore : ∀ c ∈ more, c.isDigit = true) :
    IsDigits (digits ++ more) :=
  ⟨List.append_ne_nil_of_left_ne_nil h.1 more, List.forall_mem_append.2 ⟨h.2, hmore⟩⟩

theorem isDigits_zero : IsDigits ['0'] :=
  ⟨List.cons_ne_nil _ _, List.forall_mem_singleton.2 rfl⟩

theorem isDigit_of_mem_replicate {k : Nat} : ∀ c ∈ List.replicate k '0', c.isDigit = true := by
  intro c hc
  rw [List.eq_of_mem_replicate hc]
  rfl

/-- A number other than zero is written without zeros in front. -/
theorem head?_toDigits_ne {n : Nat} (h : 0 < n) : (Nat.toDigits 10 n).head? ≠ some '0' := by
  induction n using Nat.strongRecOn with
  | ind n ih =>
    rw [Nat.toDigits_eq_if (by decide)]
    split
    · rename_i hlt
      have hall : ∀ d < 10, 0 < d → [Nat.digitChar d].head? ≠ some '0' := by decide
      exact hall n hlt h
    · rename_i hge
      have hpos : 0 < n / 10 := Nat.div_pos (Nat.le_of_not_lt hge) (by decide)
      rw [List.head?_append_of_ne_nil _ Nat.toDigits_ne_nil]
      exact ih (n / 10) (Nat.div_lt_self h (by decide)) hpos

theorem head?_toDigits_zero (n : Nat) (h : (Nat.toDigits 10 n).head? = some '0') : Nat.toDigits 10 n = ['0'] := by
  rcases Nat.eq_zero_or_pos n with rfl | hpos
  · rfl
  · exact absurd h (head?_toDigits_ne hpos)

theorem digitsValue_eq (digits : List Char) : digitsValue digits = Nat.ofDigitChars 10 digits 0 :=
  Nat.ofDigitChars_eq_foldl.symm

@[simp] theorem digitsValue_toDigits (n : Nat) : digitsValue (Nat.toDigits 10 n) = n := by
  rw [digitsValue_eq, Nat.ofDigitChars_ten_toDigits]

theorem digitsValue_append_replicate (digits : List Char) (k : Nat) :
    digitsValue (digits ++ List.replicate k '0') = digitsValue digits * 10 ^ k := by
  rw [digitsValue_eq, Nat.ofDigitChars_append, Nat.ofDigitChars_replicate_zero, digitsValue_eq, Nat.mul_comm]

theorem digitsValue_replicate_append (digits : List Char) (k : Nat) :
    digitsValue (List.replicate k '0' ++ digits) = digitsValue digits := by
  rw [digitsValue_eq, Nat.ofDigitChars_append, Nat.ofDigitChars_replicate_zero, Nat.mul_zero, digitsValue_eq]

/-! ### The decimal of a numeral -/

theorem takeFitting_lt {significand : Nat} (h : significand < 2 ^ 64) (digits : List Char) :
    (takeFitting significand digits).1 < 2 ^ 64 := by
  induction digits generalizing significand with
  | nil => exact h
  | cons c digits ih =>
    unfold takeFitting
    dsimp only
    split
    · rename_i hfits
      exact ih hfits
    · exact h

theorem le_ofDigitChars (digits : List Char) (n : Nat) : n ≤ Nat.ofDigitChars 10 digits n := by
  rw [Nat.ofDigitChars_eq_ofDigitChars_zero]
  exact (Nat.le_mul_of_pos_left n (Nat.pow_pos (by decide))).trans (Nat.le_add_right _ _)

/-- Digits that fit are all taken. -/
theorem takeFitting_eq {significand : Nat} (h : Nat.ofDigitChars 10 digits significand < 2 ^ 64) :
    takeFitting significand digits = (Nat.ofDigitChars 10 digits significand, []) := by
  induction digits generalizing significand with
  | nil => rfl
  | cons c digits ih =>
    rw [Nat.ofDigitChars_cons] at h ⊢
    have hnext := (le_ofDigitChars digits (10 * significand + (c.toNat - '0'.toNat))).trans_lt h
    rw [takeFitting]
    exact (if_pos hnext).trans (ih h)

namespace Numeral

/-- The decimal that a numeral spells with all of its digits. -/
def written (n : Numeral) : Decimal :=
  ⟨digitsValue (n.whole ++ n.fraction.getD []), n.power - (n.fraction.getD []).length⟩

theorem digits_decimal_lt (n : Numeral) : n.decimal.digits < 2 ^ 64 :=
  takeFitting_lt (takeFitting_lt (by decide) n.whole) _

/-- Nothing is left out of digits that fit 64 bits. -/
theorem decimal_eq_written {n : Numeral} (h : n.written.digits < 2 ^ 64) : n.decimal = n.written := by
  have hall : Nat.ofDigitChars 10 (n.fraction.getD []) (Nat.ofDigitChars 10 n.whole 0) < 2 ^ 64 := by
    rwa [written, digitsValue_eq, Nat.ofDigitChars_append] at h
  have hwhole := takeFitting_eq ((le_ofDigitChars (n.fraction.getD []) _).trans_lt hall)
  have hfraction := takeFitting_eq hall
  unfold decimal written
  simp only [hwhole, hfraction, digitsValue_eq, Nat.ofDigitChars_append]
  simp

/-- A numeral with a fraction or an exponent stands for a double. -/
theorem value?_of_double {n : Numeral} (h : n.fraction ≠ none ∨ n.exponent ≠ none) :
    n.value? = (Binary64.ofParts? n.negative n.decimal).map .double :=
  dif_neg fun hinteger => h.elim (· hinteger.2.1) (· hinteger.2.2.1)

end Numeral

/-! ### The numerals of numbers -/

namespace Numeral

/-- Digits with the point after the first `places` of them, filled up with zeros on either side. -/
def positional (negative : Bool) (digits : List Char) (places : Int) : Numeral :=
  if places ≤ 0 then ⟨negative, ['0'], some (List.replicate (-places).toNat '0' ++ digits), none⟩
  else if digits.length ≤ places.toNat then
    ⟨negative, digits ++ List.replicate (places.toNat - digits.length) '0', some ['0'], none⟩
  else ⟨negative, digits.take places.toNat, some (digits.drop places.toNat), none⟩

/-- Digits with the point after the first one, if there are more, and with an exponent. -/
def scientific (negative : Bool) (digits : List Char) (exponent : Int) : Numeral :=
  let power := some (decide (exponent < 0), Nat.toDigits 10 exponent.natAbs)
  match digits with
  | first :: second :: more => ⟨negative, [first], some (second :: more), power⟩
  | short => ⟨negative, short, none, power⟩

/-- The numeral as which a double is written. -/
def ofDouble (x : Binary64) : Numeral :=
  if x.mantissa = 0 then ⟨x.negative, ['0'], some ['0'], none⟩
  else
    let digits := Nat.toDigits 10 x.shortest.digits
    let places := (digits.length : Int) + x.shortest.exponent
    if Binary64.isPositional (places - 1) then positional x.negative digits places
    else scientific x.negative digits (places - 1)

/--
A numeral of a double with its text: but for zeros it has the given digits, the last one at the given power of ten.
-/
structure Shows (n : Numeral) (text : List Char) (digits : List Char) (exponent : Int) : Prop where
  wellFormed : n.IsWellFormed
  characters : n.characters = text
  double : n.fraction ≠ none ∨ n.exponent ≠ none
  written : ∃ k, n.written = ⟨digitsValue digits * 10 ^ k, exponent - (k : Nat)⟩

end Numeral

section Double

variable {places : Int}

/-- The point comes before all digits. -/
private theorem shows_before (negative : Bool) (hdigits : IsDigits digits) (hplaces : places ≤ 0) :
    (positional negative digits places).Shows
      ((if negative then ['-'] else []) ++ Binary64.positionalText digits places) digits
        (places - digits.length) := by
  rw [Binary64.positionalText, if_pos hplaces, positional, if_pos hplaces]
  have hfraction : IsDigits (List.replicate (-places).toNat '0' ++ digits) :=
    ⟨List.append_ne_nil_of_right_ne_nil _ hdigits.1,
      List.forall_mem_append.2 ⟨isDigit_of_mem_replicate, hdigits.2⟩⟩
  refine ⟨⟨isDigits_zero, fun _ => rfl, by simpa using hfraction, by simp⟩, ?_, .inl (by simp), 0, ?_⟩
  · simp [characters, fractionCharacters, exponentCharacters]
  · have hvalue : digitsValue (['0'] ++ (List.replicate (-places).toNat '0' ++ digits)) = digitsValue digits := by
      rw [← List.append_assoc]
      exact digitsValue_replicate_append digits ((-places).toNat + 1)
    have hpower : (0 : Int) - ((List.replicate (-places).toNat '0' ++ digits).length : Nat) =
        places - digits.length := by
      rw [List.length_append, List.length_replicate]
      omega
    simp only [Numeral.written, power, Option.getD_some, hvalue, hpower]
    simp

/-- The point comes after all digits. -/
private theorem shows_after (negative : Bool) (hdigits : IsDigits digits) (hfirst : digits.head? ≠ some '0')
    (hplaces : ¬ places ≤ 0) (hlong : digits.length ≤ places.toNat) :
    (positional negative digits places).Shows
      ((if negative then ['-'] else []) ++ Binary64.positionalText digits places) digits
        (places - digits.length) := by
  simp only [Binary64.positionalText, if_neg hplaces, if_pos hlong, positional]
  refine ⟨⟨isDigits_append hdigits isDigit_of_mem_replicate, fun hzero => ?_, by simpa using isDigits_zero,
    by simp⟩, ?_, .inl (by simp), places.toNat - digits.length + 1, ?_⟩
  · rw [List.head?_append_of_ne_nil _ hdigits.1] at hzero
    exact absurd hzero hfirst
  · simp [characters, fractionCharacters, exponentCharacters]
  · have hvalue : digitsValue (digits ++ List.replicate (places.toNat - digits.length) '0' ++ ['0']) =
        digitsValue digits * 10 ^ (places.toNat - digits.length + 1) := by
      rw [List.append_assoc, ← List.replicate_succ', digitsValue_append_replicate]
    have hpower : (0 : Int) - (['0'] : List Char).length =
        places - digits.length - ((places.toNat - digits.length + 1 : Nat) : Int) := by
      simp only [List.length_singleton]
      omega
    simp only [Numeral.written, power, Option.getD_some, hvalue, hpower]

/-- The point comes between the digits. -/
private theorem shows_between (negative : Bool) (hdigits : IsDigits digits) (hfirst : digits.head? ≠ some '0')
    (hplaces : ¬ places ≤ 0) (hlong : ¬ digits.length ≤ places.toNat) :
    (positional negative digits places).Shows
      ((if negative then ['-'] else []) ++ Binary64.positionalText digits places) digits
        (places - digits.length) := by
  simp only [Binary64.positionalText, if_neg hplaces, if_neg hlong, positional]
  have htake : digits.take places.toNat ≠ [] := by
    simpa [List.take_eq_nil_iff, hdigits.1] using by omega
  have hdrop : digits.drop places.toNat ≠ [] := by
    simpa [List.drop_eq_nil_iff] using hlong
  refine ⟨⟨⟨htake, fun c hc => hdigits.2 c (List.mem_of_mem_take hc)⟩, fun hzero => ?_, ?_, by simp⟩,
    ?_, .inl (by simp), 0, ?_⟩
  · refine absurd ?_ hfirst
    rw [← List.take_append_drop places.toNat digits, List.head?_append_of_ne_nil _ htake]
    exact hzero
  · simpa [IsDigits, hdrop] using fun c hc => hdigits.2 c (List.mem_of_mem_drop hc)
  · simp [characters, fractionCharacters, exponentCharacters]
  · have hpower : (0 : Int) - ((digits.drop places.toNat).length : Nat) = places - digits.length := by
      rw [List.length_drop]
      omega
    simp only [Numeral.written, power, Option.getD_some, List.take_append_drop, hpower]
    simp

private theorem shows_positional (negative : Bool) (hdigits : IsDigits digits) (hfirst : digits.head? ≠ some '0') :
    (positional negative digits places).Shows
      ((if negative then ['-'] else []) ++ Binary64.positionalText digits places) digits
        (places - digits.length) := by
  by_cases hplaces : places ≤ 0
  · exact shows_before negative hdigits hplaces
  · by_cases hlong : digits.length ≤ places.toNat
    · exact shows_after negative hdigits hfirst hplaces hlong
    · exact shows_between negative hdigits hfirst hplaces hlong

private theorem power_scientific (negative : Bool) (whole : List Char) (fraction : Option (List Char))
    (exponent : Int) :
    (Numeral.mk negative whole fraction (some (decide (exponent < 0), Nat.toDigits 10 exponent.natAbs))).power =
      exponent := by
  by_cases hneg : exponent < 0
  · simp only [power, hneg, decide_true, digitsValue_toDigits]
    omega
  · simp only [power, hneg, decide_false, digitsValue_toDigits]
    omega

private theorem shows_scientific (negative : Bool) (hdigits : IsDigits digits) (hfirst : digits.head? ≠ some '0')
    (exponent : Int) : (scientific negative digits exponent).Shows
      ((if negative then ['-'] else []) ++ Binary64.exponentText digits exponent) digits
      (exponent + 1 - digits.length) := by
  match digits, hdigits with
  | [], hdigits => exact absurd rfl hdigits.1
  | [c], hdigits =>
    refine ⟨⟨hdigits, fun hzero => absurd hzero hfirst, by simp [scientific],
      by simpa [scientific] using isDigits_toDigits _⟩, ?_, .inr (by simp [scientific]), 0, ?_⟩
    · cases negative <;> simp [scientific, characters, fractionCharacters, exponentCharacters, Binary64.exponentText]
    · simp [scientific, Numeral.written, power_scientific]
  | first :: second :: more, hdigits =>
    have hmore := List.forall_mem_cons.1 hdigits.2
    refine ⟨⟨⟨by simp [scientific], by simpa [scientific] using hmore.1⟩, fun hzero => absurd hzero hfirst, ?_,
      by simpa [scientific] using isDigits_toDigits _⟩, ?_, .inr (by simp [scientific]), 0, ?_⟩
    · simpa [scientific, IsDigits] using hmore.2
    · cases negative <;> simp [scientific, characters, fractionCharacters, exponentCharacters, Binary64.exponentText]
    · simp only [scientific, Numeral.written, power_scientific, Option.getD_some, List.singleton_append, pow_zero,
        Nat.mul_one, Int.natCast_zero, sub_zero, Decimal.mk.injEq, true_and, List.length_cons]
      omega

theorem eq_zero_of_mantissa {x : Binary64} (h : x.mantissa = 0) : Binary64.zero x.negative = x := by
  obtain ⟨negative, mantissa, exponent, hcanonical⟩ := x
  obtain rfl : mantissa = 0 := h
  obtain rfl : exponent = -1074 := hcanonical.2.2.2.resolve_left (by decide)
  rfl

/-- The numeral of a double has digits that are rounded to it. -/
private theorem shows_ofDouble (x : Binary64) : ∃ digits exponent, (ofDouble x).Shows x.write digits exponent ∧
    Binary64.ofDecimal? x.negative (digitsValue digits) exponent = some x := by
  unfold ofDouble Binary64.write
  dsimp only
  split
  · rename_i hzero
    refine ⟨['0'], 0, ⟨⟨isDigits_zero, fun _ => rfl, by simpa using isDigits_zero, by simp⟩, ?_, .inl (by simp),
      1, rfl⟩, ?_⟩
    · simp [characters, fractionCharacters, exponentCharacters]
    · have hvalue : digitsValue ['0'] = 0 := rfl
      rw [hvalue, Binary64.ofDecimal?_zero, eq_zero_of_mantissa hzero]
  · rename_i hmantissa
    have hdigits := isDigits_toDigits x.shortest.digits
    have hfirst := head?_toDigits_ne (Binary64.shortest_digits_pos hmantissa)
    have hnearest : Binary64.ofDecimal? x.negative (digitsValue (Nat.toDigits 10 x.shortest.digits))
        ((Nat.toDigits 10 x.shortest.digits).length + x.shortest.exponent -
          (Nat.toDigits 10 x.shortest.digits).length) = some x := by
      rw [digitsValue_toDigits, add_sub_cancel_left]
      exact Binary64.ofDecimal?_shortest hmantissa
    split
    · exact ⟨_, _, shows_positional x.negative hdigits hfirst, hnearest⟩
    · refine ⟨_, _, shows_scientific x.negative hdigits hfirst _, ?_⟩
      rw [sub_add_cancel]
      exact hnearest

end Double

private theorem ofDouble_cases (x : Binary64) : ofDouble x = ⟨x.negative, ['0'], some ['0'], none⟩ ∨
    ∃ digits places, ofDouble x = positional x.negative digits places ∨
      ofDouble x = scientific x.negative digits places := by
  rw [ofDouble]
  split
  · exact .inl rfl
  · right
    dsimp only
    split
    · exact ⟨_, _, .inl rfl⟩
    · exact ⟨_, _, .inr rfl⟩

theorem negative_ofDouble (x : Binary64) : (ofDouble x).negative = x.negative := by
  rcases ofDouble_cases x with hzero | ⟨digits, places, hpositional | hscientific⟩
  · rw [hzero]
  · rw [hpositional, positional]
    split_ifs <;> rfl
  · rw [hscientific]
    unfold scientific
    split <;> rfl

/-- What a double is written as is rounded to it. -/
theorem ofDecimal?_written (x : Binary64) :
    Binary64.ofDecimal? x.negative (ofDouble x).written.digits (ofDouble x).written.exponent = some x := by
  obtain ⟨digits, exponent, hshows, hnearest⟩ := shows_ofDouble x
  obtain ⟨k, hwritten⟩ := hshows.written
  rw [hwritten, Binary64.ofDecimal?_shift, hnearest]

/-- The numeral as which a number is written. -/
def Number.numeral : Number → Numeral
  | .integer n _ => ⟨decide (n < 0), Nat.toDigits 10 n.natAbs, none, none⟩
  | .double x => ofDouble x

theorem isText_writeNumber (number : Number) : Numeral.IsText (writeNumber number) number.numeral := by
  cases number with
  | integer n h =>
    have hwell : (Number.integer n h).numeral.IsWellFormed :=
      ⟨isDigits_toDigits _, head?_toDigits_zero _, by simp [Number.numeral], by simp [Number.numeral]⟩
    have htext : writeNumber (.integer n h) = (Number.integer n h).numeral.characters := by
      simp [Number.numeral, characters, fractionCharacters, exponentCharacters, writeNumber, writeInteger]
    rw [htext]
    exact hwell.isText
  | double x =>
    obtain ⟨_, _, hshows, -⟩ := shows_ofDouble x
    rw [writeNumber, ← hshows.characters]
    exact hshows.wellFormed.isText

/-- A double has a fraction or an exponent, which an integer has not. -/
private theorem numeral_double_ne_integer (x : Binary64) (n : Int) (h : IsMachineInteger n) :
    (Number.double x).numeral ≠ (Number.integer n h).numeral := by
  intro heq
  obtain ⟨_, _, hshows, -⟩ := shows_ofDouble x
  have hdouble := hshows.double
  have hboth : (ofDouble x).fraction = none ∧ (ofDouble x).exponent = none := by
    have hsame : ofDouble x = _ := heq
    rw [hsame]
    exact ⟨rfl, rfl⟩
  exact hdouble.elim (· hboth.1) (· hboth.2)

/-- Different numbers are written as different numerals. -/
theorem Number.numeral_injective {a b : Number} (h : a.numeral = b.numeral) : a = b := by
  cases a with
  | integer n hn =>
    cases b with
    | integer m hm =>
      have hsign : decide (n < 0) = decide (m < 0) := congrArg Numeral.negative h
      have hvalue : n.natAbs = m.natAbs := by
        rw [← digitsValue_toDigits n.natAbs, ← digitsValue_toDigits m.natAbs]
        exact congrArg (fun numeral => digitsValue numeral.whole) h
      have heq : n = m := by
        rw [decide_eq_decide] at hsign
        omega
      subst heq
      rfl
    | double y => exact absurd h.symm (numeral_double_ne_integer y n hn)
  | double x =>
    cases b with
    | integer m hm => exact absurd h (numeral_double_ne_integer x m hm)
    | double y =>
      have hsame : ofDouble x = ofDouble y := h
      have hx := ofDecimal?_written x
      rw [← negative_ofDouble, hsame, negative_ofDouble, ofDecimal?_written] at hx
      rw [Option.some.inj hx]

/-! ### Numbers that read back -/

/-- The text of the number is read as the number. -/
def Number.ReadsBack (number : Number) : Prop :=
  (readNumeral? (writeNumber number)).bind (·.1.value?) = some number

instance (number : Number) : Decidable number.ReadsBack := by
  unfold Number.ReadsBack
  infer_instance

theorem readsBack_iff {number : Number} : number.ReadsBack ↔ number.numeral.value? = some number := by
  have hstops : StopsNumber [] := by simp [StopsNumber]
  have hread := readNumeral?_text (isText_writeNumber number) hstops
  rw [List.append_nil] at hread
  rw [Number.ReadsBack, hread, Option.bind_some]

theorem readsBack_integer (n : Int) (h : IsMachineInteger n) : (Number.integer n h).ReadsBack := by
  have hvalue : (Number.integer n h).numeral.integer = n := by
    simp only [Number.numeral, integer, digitsValue_toDigits, decide_eq_true_eq]
    split <;> omega
  have hzero : ¬((Number.integer n h).numeral.negative = true ∧ n = 0) := by
    simp only [Number.numeral, decide_eq_true_eq]
    omega
  rw [readsBack_iff, value?]
  simp only [hvalue]
  exact dif_pos ⟨h, rfl, rfl, hzero⟩

/-- Doubles read back that are written with few digits, those zeros included that fill them up, near the point. -/
theorem readsBack_double {x : Binary64} (hdigits : (ofDouble x).written.digits < 2 ^ 53)
    (hexponent : (ofDouble x).written.exponent.natAbs ≤ 22) : (Number.double x).ReadsBack := by
  obtain ⟨_, _, hshows, -⟩ := shows_ofDouble x
  rw [readsBack_iff, Number.numeral, value?_of_double hshows.double,
    decimal_eq_written (hdigits.trans (by decide)), Binary64.ofParts?_eq_ofDecimal? hdigits hexponent,
    negative_ofDouble, ofDecimal?_written]
  rfl

/-- Not all doubles do: `1e-30` is read as one divided by the double nearest to `10^30`. -/
example : ¬ (Number.double ⟨false, 5708990770823840, -152, by decide⟩).ReadsBack := by decide +kernel

end PageBindings.Json
