import PageBindings.Json.Raw

/-!
# How numerals are written

A numeral may be written in several ways (`Numeral.IsText`), of which `Numeral.characters` is one.  However it is
written and whatever follows, unless that would go on with the number, it is read as the same numeral
(`readNumeral?_text`); and nothing else is read as one (`isText_of_readNumeral?`).
-/

namespace PageBindings.Json

/-- The characters after a number do not go on with it. -/
def StopsNumber (rest : List Char) : Prop :=
  ∀ c ∈ rest.head?, c.isDigit = false ∧ c ≠ '.' ∧ c ≠ 'e' ∧ c ≠ 'E'

namespace Numeral

/-- The fraction of a number as it is written. -/
def fractionCharacters : Option (List Char) → List Char
  | none => []
  | some digits => '.' :: digits

/-- The exponent of a number as it is written. -/
def exponentCharacters : Option (Bool × List Char) → List Char
  | none => []
  | some (negative, digits) => 'e' :: (if negative then '-' else '+') :: digits

/-- The characters of a numeral, its exponent with a sign in any case. -/
def characters (n : Numeral) : List Char :=
  (if n.negative then ['-'] else []) ++ n.whole ++ fractionCharacters n.fraction ++ exponentCharacters n.exponent

/-- How an exponent may be written: after its letter in either case, a plus sign stands or does not. -/
inductive ExponentText : List Char → Option (Bool × List Char) → Prop where
  | none : ExponentText [] none
  | minus {e : Char} {digits : List Char} (he : e = 'e' ∨ e = 'E') :
      ExponentText (e :: '-' :: digits) (some (true, digits))
  | plus {e : Char} {digits : List Char} (he : e = 'e' ∨ e = 'E') :
      ExponentText (e :: '+' :: digits) (some (false, digits))
  | plain {e : Char} {digits : List Char} (he : e = 'e' ∨ e = 'E') : ExponentText (e :: digits) (some (false, digits))

/-- At least one character, and only digits. -/
def IsDigits (cs : List Char) : Prop :=
  cs ≠ [] ∧ ∀ c ∈ cs, c.isDigit = true

/-- The parts of the numeral are digits, and the whole part has no zeros in front. -/
structure IsWellFormed (n : Numeral) : Prop where
  whole : IsDigits n.whole
  noLeadingZero : n.whole.head? = some '0' → n.whole = ['0']
  fraction : ∀ digits ∈ n.fraction, IsDigits digits
  exponent : ∀ power ∈ n.exponent, IsDigits power.2

/-- The characters are a way to write a numeral. -/
structure IsText (cs : List Char) (n : Numeral) : Prop where
  wellFormed : n.IsWellFormed
  written : ∃ exponent, ExponentText exponent n.exponent ∧
    cs = (if n.negative then ['-'] else []) ++ (n.whole ++ (fractionCharacters n.fraction ++ exponent))

theorem exponentText_exponentCharacters (exponent : Option (Bool × List Char)) :
    ExponentText (exponentCharacters exponent) exponent :=
  match exponent with
  | none => .none
  | some (true, _) => .minus (.inl rfl)
  | some (false, _) => .plus (.inl rfl)

/-- The characters of a numeral are the way to write it that is used here. -/
theorem IsWellFormed.isText {n : Numeral} (h : n.IsWellFormed) : IsText n.characters n :=
  ⟨h, _, exponentText_exponentCharacters n.exponent, by simp [characters]⟩

/-- A number begins with its sign or a digit. -/
theorem IsText.exists_cons {cs : List Char} {n : Numeral} (h : IsText cs n) :
    ∃ c more, cs = c :: more ∧ (c = '-' ∨ c.isDigit = true) := by
  obtain ⟨negative, whole, fraction, exponent⟩ := n
  obtain ⟨hwell, text, -, rfl⟩ := h
  obtain ⟨hne, hdigits⟩ := hwell.whole
  cases negative with
  | true => exact ⟨'-', _, rfl, .inl rfl⟩
  | false =>
    obtain ⟨c, more, rfl⟩ := List.exists_cons_of_ne_nil hne
    exact ⟨c, _, rfl, .inr (hdigits c List.mem_cons_self)⟩

end Numeral

open Numeral

/-! ### Reading the parts -/

variable {digits rest : List Char}

theorem readDigits?_append (hdigits : IsDigits digits) (hrest : ∀ c ∈ rest.head?, c.isDigit = false) :
    readDigits? (digits ++ rest) = some (digits, rest) := by
  have htail : rest.takeWhile Char.isDigit = [] ∧ rest.dropWhile Char.isDigit = rest := by
    cases rest with
    | nil => exact ⟨rfl, rfl⟩
    | cons c rest =>
      have hc := hrest c rfl
      simp [hc]
  have htaken : takeDigits (digits ++ rest) = (digits, rest) := by
    unfold takeDigits
    rw [List.takeWhile_append_of_pos hdigits.2, List.dropWhile_append_of_pos hdigits.2, htail.1, htail.2,
      List.append_nil]
  unfold readDigits?
  simp [htaken, hdigits.1]

private theorem readWhole?_append (hdigits : IsDigits digits) (hzero : digits.head? = some '0' → digits = ['0'])
    (hrest : ∀ c ∈ rest.head?, c.isDigit = false) : readWhole? (digits ++ rest) = some (digits, rest) := by
  unfold readWhole?
  rw [readDigits?_append hdigits hrest]
  split
  · rename_i heq
    obtain ⟨rfl, -⟩ := Prod.mk.inj (Option.some.inj heq)
    simpa using hzero rfl
  · rfl

private theorem readFraction?_append {fraction : Option (List Char)}
    (hfraction : ∀ digits ∈ fraction, IsDigits digits) (hrest : ∀ c ∈ rest.head?, c.isDigit = false ∧ c ≠ '.') :
    readFraction? (fractionCharacters fraction ++ rest) = some (fraction, rest) := by
  cases fraction with
  | some digits =>
    simp only [fractionCharacters, List.cons_append, readFraction?,
      readDigits?_append (hfraction digits rfl) fun c hc => (hrest c hc).1, Option.map_some]
  | none =>
    unfold readFraction?
    split
    · rename_i heq
      exact absurd rfl (hrest '.' (by simp [show rest = _ from heq])).2
    · rfl

/-- The digits of an exponent are not taken for its sign. -/
private theorem readExponent?_plain {e : Char} (he : e = 'e' ∨ e = 'E') (hdigits : IsDigits digits)
    (hrest : ∀ c ∈ rest.head?, c.isDigit = false) :
    readExponent? (e :: (digits ++ rest)) = some (some (false, digits), rest) := by
  have hread := readDigits?_append hdigits hrest
  obtain ⟨c, more, rfl⟩ := List.exists_cons_of_ne_nil hdigits.1
  have hc : c.isDigit = true := hdigits.2 c List.mem_cons_self
  have hminus : c ≠ '-' := by
    rintro rfl
    exact absurd hc (by decide)
  have hplus : c ≠ '+' := by
    rintro rfl
    exact absurd hc (by decide)
  simp only [List.cons_append] at hread ⊢
  rcases he with rfl | rfl <;> simp [readExponent?, hminus, hplus, hread]

private theorem readExponent?_text {exponent : Option (Bool × List Char)} {cs : List Char}
    (h : ExponentText cs exponent) (hexponent : ∀ power ∈ exponent, IsDigits power.2) (hrest : StopsNumber rest) :
    readExponent? (cs ++ rest) = some (exponent, rest) := by
  have hdigit : ∀ c ∈ rest.head?, c.isDigit = false := fun c hc => (hrest c hc).1
  cases h with
  | none =>
    cases rest with
    | nil => rfl
    | cons c rest =>
      obtain ⟨-, -, he, hE⟩ := hrest c rfl
      simp [readExponent?, he, hE]
  | minus he =>
    have hread := readDigits?_append (hexponent _ rfl) hdigit
    rcases he with rfl | rfl <;> simp [readExponent?, hread]
  | plus he =>
    have hread := readDigits?_append (hexponent _ rfl) hdigit
    rcases he with rfl | rfl <;> simp [readExponent?, hread]
  | plain he => exact readExponent?_plain he (hexponent _ rfl) hdigit

/-- However a numeral is written, it is read as that numeral. -/
theorem readNumeral?_text {n : Numeral} {cs : List Char} (h : IsText cs n) (hrest : StopsNumber rest) :
    readNumeral? (cs ++ rest) = some (n, rest) := by
  obtain ⟨negative, whole, fraction, exponent⟩ := n
  obtain ⟨⟨hwhole, hzero, hfraction, hexponent⟩, text, htext, rfl⟩ := h
  have hafterFraction : ∀ c ∈ (text ++ rest).head?, c.isDigit = false ∧ c ≠ '.' := by
    intro c hc
    cases htext with
    | none => exact ⟨(hrest c hc).1, (hrest c hc).2.1⟩
    | minus he =>
      obtain rfl := Option.some.inj hc
      rcases he with rfl | rfl <;> decide
    | plus he =>
      obtain rfl := Option.some.inj hc
      rcases he with rfl | rfl <;> decide
    | plain he =>
      obtain rfl := Option.some.inj hc
      rcases he with rfl | rfl <;> decide
  have hafterWhole : ∀ c ∈ (fractionCharacters fraction ++ (text ++ rest)).head?, c.isDigit = false := by
    intro c hc
    cases fraction with
    | some digits =>
      obtain rfl : '.' = c := Option.some.inj hc
      decide
    | none => exact (hafterFraction c hc).1
  have hparts := readWhole?_append hwhole hzero hafterWhole
  have hafter := readExponent?_text htext hexponent hrest
  simp only [List.append_assoc]
  cases negative with
  | true => simp [readNumeral?, hparts, readFraction?_append hfraction hafterFraction, hafter]
  | false =>
    obtain ⟨c, more, rfl⟩ := List.exists_cons_of_ne_nil hwhole.1
    have hsign : c ≠ '-' := by
      rintro rfl
      exact absurd (hwhole.2 '-' List.mem_cons_self) (by decide)
    simp only [List.cons_append] at hparts
    simp [readNumeral?, hsign, hparts, readFraction?_append hfraction hafterFraction, hafter]

/-! ### What was read -/

private theorem isDigits_of_readDigits? {cs : List Char} (h : readDigits? cs = some (digits, rest)) :
    IsDigits digits ∧ cs = digits ++ rest := by
  unfold readDigits? at h
  dsimp only at h
  split at h
  · simp at h
  · rename_i hne
    obtain ⟨rfl, rfl⟩ := Prod.mk.inj (Option.some.inj h)
    refine ⟨⟨?_, fun c hc => isDigit_of_mem_takeDigits hc⟩, (takeDigits_append cs).symm⟩
    rwa [List.isEmpty_iff] at hne

private theorem isDigits_of_readWhole? {cs : List Char} (h : readWhole? cs = some (digits, rest)) :
    IsDigits digits ∧ (digits.head? = some '0' → digits = ['0']) ∧ cs = digits ++ rest := by
  unfold readWhole? at h
  split at h
  · simp at h
  · rename_i hzeros
    obtain ⟨hdigits, hcs⟩ := isDigits_of_readDigits? h
    refine ⟨hdigits, fun hhead => ?_, hcs⟩
    match digits with
    | [] => simp at hhead
    | [c] =>
      obtain rfl := Option.some.inj hhead
      rfl
    | c :: next :: more =>
      obtain rfl := Option.some.inj hhead
      exact absurd h (hzeros next more rest)

private theorem isDigits_of_readFraction? {cs : List Char} {fraction : Option (List Char)}
    (h : readFraction? cs = some (fraction, rest)) :
    (∀ digits ∈ fraction, IsDigits digits) ∧ cs = fractionCharacters fraction ++ rest := by
  unfold readFraction? at h
  split at h
  · obtain ⟨⟨digits, after⟩, hread, heq⟩ := Option.map_eq_some_iff.1 h
    obtain ⟨rfl, rfl⟩ := Prod.mk.inj heq
    obtain ⟨hdigits, rfl⟩ := isDigits_of_readDigits? hread
    exact ⟨by simpa using hdigits, rfl⟩
  · obtain ⟨rfl, rfl⟩ := Prod.mk.inj (Option.some.inj h)
    exact ⟨by simp, rfl⟩

private theorem exponentText_of_readExponent? {cs : List Char} {exponent : Option (Bool × List Char)}
    (h : readExponent? cs = some (exponent, rest)) :
    (∀ power ∈ exponent, IsDigits power.2) ∧ ∃ text, ExponentText text exponent ∧ cs = text ++ rest := by
  unfold readExponent? at h
  split at h
  · rename_i e after
    split at h
    · rename_i he
      have he : e = 'e' ∨ e = 'E' := by simpa using he
      obtain ⟨⟨digits, last⟩, hread, heq⟩ := Option.map_eq_some_iff.1 h
      obtain ⟨rfl, rfl⟩ := Prod.mk.inj heq
      obtain ⟨hdigits, hafter⟩ := isDigits_of_readDigits? hread
      refine ⟨by simpa using hdigits, ?_⟩
      split at hafter
      · exact ⟨_, .minus he, congrArg (fun more => e :: '-' :: more) hafter⟩
      · exact ⟨_, .plus he, congrArg (fun more => e :: '+' :: more) hafter⟩
      · exact ⟨_, .plain he, congrArg (e :: ·) hafter⟩
    · obtain ⟨rfl, rfl⟩ := Prod.mk.inj (Option.some.inj h)
      exact ⟨by simp, [], .none, rfl⟩
  · obtain ⟨rfl, rfl⟩ := Prod.mk.inj (Option.some.inj h)
    exact ⟨by simp, [], .none, rfl⟩

/-- What was read as a numeral is written as one. -/
theorem isText_of_readNumeral? {cs : List Char} {n : Numeral} (h : readNumeral? cs = some (n, rest)) :
    ∃ text, IsText text n ∧ cs = text ++ rest := by
  unfold readNumeral? at h
  obtain ⟨⟨whole, afterWhole⟩, hwhole, h⟩ := Option.bind_eq_some_iff.1 h
  obtain ⟨⟨fraction, afterFraction⟩, hfraction, h⟩ := Option.bind_eq_some_iff.1 h
  obtain ⟨⟨exponent, afterExponent⟩, hexponent, h⟩ := Option.bind_eq_some_iff.1 h
  obtain ⟨rfl, rfl⟩ := Prod.mk.inj (Option.some.inj h)
  obtain ⟨hdigits, hzero, hunsigned⟩ := isDigits_of_readWhole? hwhole
  obtain ⟨hplaces, rfl⟩ := isDigits_of_readFraction? hfraction
  obtain ⟨hpower, text, htext, rfl⟩ := exponentText_of_readExponent? hexponent
  refine ⟨_, ⟨⟨hdigits, hzero, hplaces, hpower⟩, text, htext, rfl⟩, ?_⟩
  -- the sign, if there is one, was taken off first
  split at hunsigned
  · exact congrArg ('-' :: ·) (hunsigned.trans (by simp))
  · exact hunsigned.trans (by simp)

end PageBindings.Json
