import PageBindings.Proofs.Selector.Attribute

/-!
# The grammar of selectors

A selector is written as a row of pieces (`Selector.Piece`): a name after a hash or a point, an attribute in brackets,
with or without a text for its value, or a tag.  `Selector.Spells` says that a text is such a row with blanks around
it, each name as long as it can be.  Reading accepts exactly these texts, and gives one condition for each piece in
order (`Selector.parse?_eq_some_iff`).
-/

namespace PageBindings.Selector

/-! ### Pieces -/

/-- What a quoted text consists of: characters by themselves, and characters after a backslash. -/
inductive QuotedUnit where
  | plain (c : Char)
  | escaped (c : Char)
deriving DecidableEq, Repr

namespace QuotedUnit

/-- How a unit is written. -/
def written : QuotedUnit → List Char
  | .plain c => [c]
  | .escaped c => ['\\', c]

/-- Quotes and backslashes do not stand by themselves. -/
def IsProper : QuotedUnit → Prop
  | .plain c => c ≠ '"' ∧ c ≠ '\\'
  | .escaped _ => True

/-- What a quoted text stands for: an escaped `a`, with the space that may follow, is a line feed. -/
def value : List QuotedUnit → List Char
  | [] => []
  | .escaped 'a' :: .plain ' ' :: rest => '\n' :: value rest
  | .escaped 'a' :: rest => '\n' :: value rest
  | .escaped c :: rest => c :: value rest
  | .plain c :: rest => c :: value rest

end QuotedUnit

/-- A piece of a selector as it is written. -/
inductive Piece where
  | id (name : String)
  | inClass (name : String)
  | has (name : String)
  | equals (name : String) (text : List QuotedUnit)
  | tag (name : String)
deriving DecidableEq, Repr

namespace Piece

/-- The characters of a piece. -/
def written : Piece → List Char
  | .id name => '#' :: name.toList
  | .inClass name => '.' :: name.toList
  | .has name => '[' :: (name.toList ++ [']'])
  | .equals name text => '[' :: (name.toList ++ '=' :: '"' :: (text.flatMap QuotedUnit.written ++ ['"', ']']))
  | .tag name => name.toList

/-- The condition that a piece states. -/
def condition : Piece → Condition
  | .id name => .id name
  | .inClass name => .inClass name
  | .has name => .has name
  | .equals name text => .equals name (String.ofList (QuotedUnit.value text))
  | .tag name => .tag (name.map Char.toLower)

/-- The name in a piece. -/
def name : Piece → String
  | .id name | .inClass name | .has name | .equals name _ | .tag name => name

/-- Whether a name stands at the end of a piece, where it would go on with more name characters. -/
def endsInName : Piece → Bool
  | .id _ | .inClass _ | .tag _ => true
  | .has _ | .equals _ _ => false

/--
Names consist of name characters, a tag starts with a letter or digit, and a text is escaped where it has to be.
-/
structure IsWellFormed (p : Piece) : Prop where
  name : ∀ c ∈ p.name.toList, isNameChar c = true
  tag : ∀ name, p = .tag name → ∃ c ∈ name.toList.head?, Text.isAlphanumeric c = true
  text : ∀ name text, p = .equals name text → ∀ unit ∈ text, unit.IsProper

/-- The name at the end of a piece ends where `rest` begins. -/
def EndsBefore (p : Piece) (rest : List Char) : Prop :=
  p.endsInName = true → ∀ c ∈ rest.head?, isNameChar c = false

end Piece

/-- The text is the pieces one after the other, with blanks around them; no name goes on in the next piece. -/
structure Spells (text : String) (pieces : List Piece) : Prop where
  nonempty : pieces ≠ []
  written : Text.trimmed text.toList = pieces.flatMap Piece.written
  wellFormed : ∀ p ∈ pieces, p.IsWellFormed
  maximal : pieces.IsChain fun p next => p.EndsBefore next.written

variable {cs rest value : List Char} {c : Char} {p : Piece} {pieces : List Piece} {units : List QuotedUnit}
  {condition : Condition} {conditions : Selector}

/-! ### Quoted texts -/

/-- What follows an escaped `a` is no space, unless it is a space that stands by itself. -/
private theorem ne_space_of_units (h : ∀ more, units ≠ .plain ' ' :: more) (more : List Char) :
    units.flatMap QuotedUnit.written ++ '"' :: rest ≠ ' ' :: more := by
  intro heq
  cases units with
  | nil => simp at heq
  | cons unit units =>
    cases unit with
    | plain c =>
      simp only [List.flatMap_cons, QuotedUnit.written, List.cons_append, List.nil_append, List.cons.injEq] at heq
      exact h units (by rw [heq.1])
    | escaped c => simp [QuotedUnit.written] at heq

theorem readValue?_units (h : ∀ unit ∈ units, unit.IsProper) :
    readValue? (units.flatMap QuotedUnit.written ++ '"' :: rest) = some (QuotedUnit.value units, rest) := by
  fun_induction QuotedUnit.value units with
  | case1 => rw [List.flatMap_nil, List.nil_append, readValue?]
  | case2 units ih =>
    have hread := ih fun unit hunit => h unit (by simp [hunit])
    simp only [List.flatMap_cons, QuotedUnit.written, List.cons_append, List.nil_append]
    rw [readValue?, hread]
    rfl
  | case3 units hspace ih =>
    have hread := ih fun unit hunit => h unit (by simp [hunit])
    simp only [List.flatMap_cons, QuotedUnit.written, List.cons_append, List.nil_append]
    rw [readValue?, hread]
    · rfl
    · exact fun more => ne_space_of_units hspace more
  | case4 c units hspace ha ih =>
    have hread := ih fun unit hunit => h unit (by simp [hunit])
    simp only [List.flatMap_cons, QuotedUnit.written, List.cons_append, List.nil_append]
    rw [readValue?_escaped ha, hread]
    rfl
  | case5 c units ih =>
    have hread := ih fun unit hunit => h unit (by simp [hunit])
    obtain ⟨hquote, hbackslash⟩ := h (.plain c) (by simp)
    simp only [List.flatMap_cons, QuotedUnit.written, List.cons_append, List.nil_append]
    rw [readValue?_plain hquote hbackslash, hread]
    rfl

theorem exists_units_of_readValue? (h : readValue? cs = some (value, rest)) :
    ∃ units : List QuotedUnit, (∀ unit ∈ units, unit.IsProper) ∧
      cs = units.flatMap QuotedUnit.written ++ '"' :: rest ∧ value = QuotedUnit.value units := by
  fun_induction readValue? cs generalizing value with
  | case1 => simp at h
  | case2 cs =>
    simp only [Option.some.injEq, Prod.mk.injEq] at h
    obtain ⟨rfl, rfl⟩ := h
    exact ⟨[], by simp, rfl, rfl⟩
  | case3 cs ih =>
    obtain ⟨⟨v, r⟩, hread, heq⟩ := Option.map_eq_some_iff.1 h
    obtain ⟨rfl, rfl⟩ := Prod.mk.inj heq
    obtain ⟨units, hunits, rfl, rfl⟩ := ih hread
    refine ⟨.escaped 'a' :: .plain ' ' :: units, ?_, rfl, ?_⟩
    · simpa [QuotedUnit.IsProper] using hunits
    · rw [QuotedUnit.value]
  | case4 cs hspace ih =>
    obtain ⟨⟨v, r⟩, hread, heq⟩ := Option.map_eq_some_iff.1 h
    obtain ⟨rfl, rfl⟩ := Prod.mk.inj heq
    obtain ⟨units, hunits, rfl, rfl⟩ := ih hread
    refine ⟨.escaped 'a' :: units, ?_, rfl, ?_⟩
    · simpa [QuotedUnit.IsProper] using hunits
    · rw [QuotedUnit.value]
      rintro more rfl
      exact hspace (more.flatMap QuotedUnit.written ++ '"' :: r) rfl
  | case5 c cs hspace ha ih =>
    obtain ⟨⟨v, r⟩, hread, heq⟩ := Option.map_eq_some_iff.1 h
    obtain ⟨rfl, rfl⟩ := Prod.mk.inj heq
    obtain ⟨units, hunits, rfl, rfl⟩ := ih hread
    refine ⟨.escaped c :: units, ?_, rfl, ?_⟩
    · simpa [QuotedUnit.IsProper] using hunits
    · rw [QuotedUnit.value]
      · exact fun _ _ hc => ha hc
      · exact ha
  | case6 cs => simp at h
  | case7 c cs hquote hfeed ha hc hbackslash ih =>
    obtain ⟨⟨v, r⟩, hread, heq⟩ := Option.map_eq_some_iff.1 h
    obtain ⟨rfl, rfl⟩ := Prod.mk.inj heq
    obtain ⟨units, hunits, rfl, rfl⟩ := ih hread
    refine ⟨.plain c :: units, ?_, rfl, ?_⟩
    · exact List.forall_mem_cons.2 ⟨⟨hquote, hbackslash⟩, hunits⟩
    · rw [QuotedUnit.value]

/-! ### Single pieces -/

theorem takeName_of_ends {name : String} (hname : ∀ c ∈ name.toList, isNameChar c = true)
    (hends : ∀ c ∈ rest.head?, isNameChar c = false) : takeName (name.toList ++ rest) = (name, rest) := by
  cases rest with
  | nil =>
    unfold takeName
    rw [List.takeWhile_append_of_pos hname, List.dropWhile_append_of_pos hname]
    simp
  | cons c rest => rw [takeName_append_cons hname (hends c rfl), String.ofList_toList]

private theorem head?_takeName (cs : List Char) : ∀ c ∈ (takeName cs).2.head?, isNameChar c = false := by
  intro c hc
  have hhead := List.head?_dropWhile_not isNameChar cs
  rw [show cs.dropWhile isNameChar = (takeName cs).2 from rfl, hc] at hhead
  simpa using hhead

private theorem isNameChar_closing : isNameChar ']' = false ∧ isNameChar '=' = false := by
  decide +kernel

/-- A letter or digit does not begin any other piece than a tag. -/
private theorem ne_of_isAlphanumeric (h : Text.isAlphanumeric c = true) : c ≠ '#' ∧ c ≠ '.' ∧ c ≠ '[' := by
  refine ⟨?_, ?_, ?_⟩ <;> rintro rfl <;> exact absurd h (by decide +kernel)

/-- A piece is read as its condition, whatever follows, unless it would go on with the name. -/
theorem readCondition?_written (h : p.IsWellFormed) (hends : p.EndsBefore rest) :
    readCondition? (p.written ++ rest) = some (p.condition, rest) := by
  have hname : ∀ name, p.name = name → ∀ c ∈ name.toList, isNameChar c = true := fun _ heq => heq ▸ h.name
  cases p with
  | id name =>
    show readCondition? ('#' :: (name.toList ++ rest)) = _
    rw [readCondition?, takeName_of_ends (hname name rfl) (hends rfl)]
    rfl
  | inClass name =>
    show readCondition? ('.' :: (name.toList ++ rest)) = _
    rw [readCondition?, takeName_of_ends (hname name rfl) (hends rfl)]
    rfl
  | has name =>
    have hcs : (Piece.has name).written ++ rest = '[' :: (name.toList ++ ']' :: rest) := by simp [Piece.written]
    have htake : takeName (name.toList ++ ']' :: rest) = (name, ']' :: rest) :=
      takeName_of_ends (hname name rfl) (by simpa using isNameChar_closing.1)
    rw [hcs, readCondition?]
    unfold readAttribute?
    rw [htake]
    rfl
  | equals name text =>
    have hcs : (Piece.equals name text).written ++ rest =
        '[' :: (name.toList ++ '=' :: '"' :: (text.flatMap QuotedUnit.written ++ '"' :: ']' :: rest)) := by
      simp [Piece.written]
    have htake : ∀ more, takeName (name.toList ++ '=' :: more) = (name, '=' :: more) :=
      fun more => takeName_of_ends (hname name rfl) (by simpa using isNameChar_closing.2)
    have hvalue : readValue? (text.flatMap QuotedUnit.written ++ '"' :: ']' :: rest) =
        some (QuotedUnit.value text, ']' :: rest) := readValue?_units (h.text name text rfl)
    rw [hcs, readCondition?]
    unfold readAttribute?
    rw [htake]
    simp only [hvalue]
    rfl
  | tag name =>
    have htake : takeName (name.toList ++ rest) = (name, rest) := takeName_of_ends (hname name rfl) (hends rfl)
    obtain ⟨c, hc, halnum⟩ := h.tag name rfl
    obtain ⟨hhash, hpoint, hbracket⟩ := ne_of_isAlphanumeric halnum
    show readCondition? (name.toList ++ rest) = _
    cases hcs : name.toList with
    | nil => simp [hcs] at hc
    | cons first more =>
      obtain rfl : first = c := by simpa [hcs] using hc
      rw [hcs, List.cons_append] at htake
      rw [List.cons_append, readCondition?, if_pos halnum, htake]
      · rfl
      · exact hhash
      · exact hpoint
      · exact hbracket

private theorem exists_piece_of_readAttribute? (h : readAttribute? cs = some (condition, rest)) :
    ∃ p : Piece, p.IsWellFormed ∧ p.EndsBefore rest ∧ '[' :: cs = p.written ++ rest ∧ condition = p.condition := by
  have hname : ∀ c ∈ (takeName cs).1.toList, isNameChar c = true := fun c hc => isNameChar_of_mem_takeName hc
  have happend := takeName_append cs
  unfold readAttribute? at h
  dsimp only at h
  split at h
  · rename_i more hmore
    simp only [Option.some.injEq, Prod.mk.injEq] at h
    obtain ⟨rfl, rfl⟩ := h
    rw [hmore] at happend
    refine ⟨.has (takeName cs).1, ⟨hname, by simp, by simp⟩,
      fun hends => by simp [Piece.endsInName] at hends, ?_, rfl⟩
    simpa [Piece.written] using happend.symm
  · rename_i more hmore
    rw [hmore] at happend
    split at h
    · rename_i value after hvalue
      simp only [Option.some.injEq, Prod.mk.injEq] at h
      obtain ⟨rfl, rfl⟩ := h
      obtain ⟨units, hunits, rfl, rfl⟩ := exists_units_of_readValue? hvalue
      refine ⟨.equals (takeName cs).1 units, ⟨hname, by simp, ?_⟩,
        fun hends => by simp [Piece.endsInName] at hends, ?_, rfl⟩
      · rintro name text heq
        obtain ⟨-, rfl⟩ := Piece.equals.inj heq
        exact hunits
      · simpa [Piece.written] using happend.symm
    · simp at h
  · simp at h

theorem exists_piece_of_readCondition? (h : readCondition? cs = some (condition, rest)) :
    ∃ p : Piece, p.IsWellFormed ∧ p.EndsBefore rest ∧ cs = p.written ++ rest ∧ condition = p.condition := by
  have hname : ∀ cs : List Char, ∀ c ∈ (takeName cs).1.toList, isNameChar c = true :=
    fun cs c hc => isNameChar_of_mem_takeName hc
  unfold readCondition? at h
  split at h
  · simp at h
  · rename_i cs
    simp only [Option.some.injEq, Prod.mk.injEq] at h
    obtain ⟨rfl, rfl⟩ := h
    refine ⟨.id (takeName cs).1, ⟨hname cs, by simp, by simp⟩, fun _ => head?_takeName cs, ?_, rfl⟩
    exact congrArg ('#' :: ·) (takeName_append cs).symm
  · rename_i cs
    simp only [Option.some.injEq, Prod.mk.injEq] at h
    obtain ⟨rfl, rfl⟩ := h
    refine ⟨.inClass (takeName cs).1, ⟨hname cs, by simp, by simp⟩, fun _ => head?_takeName cs, ?_, rfl⟩
    exact congrArg ('.' :: ·) (takeName_append cs).symm
  · exact exists_piece_of_readAttribute? h
  · rename_i c cs hhash hpoint hbracket
    split at h
    · rename_i halnum
      simp only [Option.some.injEq, Prod.mk.injEq] at h
      obtain ⟨rfl, rfl⟩ := h
      refine ⟨.tag (takeName (c :: cs)).1, ⟨hname (c :: cs), ?_, by simp⟩, fun _ => head?_takeName (c :: cs), ?_, rfl⟩
      · rintro name heq
        obtain rfl := Piece.tag.inj heq
        have hc : isNameChar c = true := by simp [isNameChar, halnum]
        exact ⟨c, by simp [takeName, hc], halnum⟩
      · exact (takeName_append (c :: cs)).symm
    · simp at h

/-! ### Rows of pieces -/

private theorem exists_cons_of_written (h : p.IsWellFormed) : ∃ c cs, p.written = c :: cs := by
  cases p with
  | id name => exact ⟨_, _, rfl⟩
  | inClass name => exact ⟨_, _, rfl⟩
  | has name => exact ⟨_, _, rfl⟩
  | equals name text => exact ⟨_, _, rfl⟩
  | tag name =>
    obtain ⟨c, hc, -⟩ := h.tag name rfl
    exact ⟨c, _, (List.cons_head?_tail hc).symm⟩

private theorem endsBefore_flatMap_iff {next : Piece} (h : next.IsWellFormed) (pieces : List Piece) :
    p.EndsBefore ((next :: pieces).flatMap Piece.written) ↔ p.EndsBefore next.written := by
  obtain ⟨c, cs, hcs⟩ := exists_cons_of_written h
  unfold Piece.EndsBefore
  rw [List.flatMap_cons, hcs]
  rfl

/-- Pieces that no name goes on in the next one of are read as their conditions, one for each. -/
theorem readConditions?_written (hwell : ∀ p ∈ pieces, p.IsWellFormed)
    (hmaximal : pieces.IsChain fun p next => p.EndsBefore next.written) {fuel : Nat}
    (hfuel : (pieces.flatMap Piece.written).length ≤ fuel) :
    readConditions? fuel (pieces.flatMap Piece.written) = some (pieces.map Piece.condition) := by
  induction pieces generalizing fuel with
  | nil => simp [readConditions?]
  | cons p pieces ih =>
    rw [List.forall_mem_cons] at hwell
    obtain ⟨c, cs, hcs⟩ := exists_cons_of_written hwell.1
    have hends : p.EndsBefore (pieces.flatMap Piece.written) := by
      cases pieces with
      | nil => exact fun _ => by simp
      | cons next pieces =>
        rw [List.isChain_cons_cons] at hmaximal
        exact (endsBefore_flatMap_iff (hwell.2 next List.mem_cons_self) pieces).2 hmaximal.1
    have hread := readCondition?_written hwell.1 hends
    rw [List.flatMap_cons, hcs, List.cons_append] at hfuel ⊢
    rw [hcs, List.cons_append] at hread
    cases fuel with
    | zero => simp at hfuel
    | succ fuel =>
      have hlength : (pieces.flatMap Piece.written).length ≤ fuel := by
        rw [List.length_cons, List.length_append] at hfuel
        omega
      have hrest := ih hwell.2 hmaximal.of_cons hlength
      simp [readConditions?, hread, hrest]

theorem exists_pieces_of_readConditions? {fuel : Nat} (h : readConditions? fuel cs = some conditions) :
    ∃ pieces : List Piece, (∀ p ∈ pieces, p.IsWellFormed) ∧
      (pieces.IsChain fun p next => p.EndsBefore next.written) ∧
      cs = pieces.flatMap Piece.written ∧ conditions = pieces.map Piece.condition := by
  induction fuel generalizing cs conditions with
  | zero =>
    cases cs with
    | nil => exact ⟨[], by simp, .nil, rfl, by simpa [readConditions?, eq_comm] using h⟩
    | cons c cs => simp [readConditions?] at h
  | succ fuel ih =>
    cases cs with
    | nil => exact ⟨[], by simp, .nil, rfl, by simpa [readConditions?, eq_comm] using h⟩
    | cons c cs =>
      unfold readConditions? at h
      obtain ⟨⟨condition, rest⟩, hfirst, h⟩ := Option.bind_eq_some_iff.1 h
      obtain ⟨more, hmore, h⟩ := Option.bind_eq_some_iff.1 h
      obtain rfl := Option.some.inj h
      obtain ⟨p, hwell, hends, hcs, rfl⟩ := exists_piece_of_readCondition? hfirst
      obtain ⟨pieces, hpieces, hmaximal, rfl, rfl⟩ := ih hmore
      refine ⟨p :: pieces, List.forall_mem_cons.2 ⟨hwell, hpieces⟩, ?_, by rw [List.flatMap_cons, ← hcs], rfl⟩
      cases pieces with
      | nil => exact .singleton p
      | cons next pieces =>
        exact .cons_cons ((endsBefore_flatMap_iff (hpieces next List.mem_cons_self) pieces).1 hends) hmaximal

/-- Reading accepts exactly the texts that pieces spell, and gives the condition of each piece in turn. -/
theorem parse?_eq_some_iff {text : String} {selector : Selector} :
    parse? text = some selector ↔ ∃ pieces, Spells text pieces ∧ selector = pieces.map Piece.condition := by
  unfold parse?
  dsimp only
  constructor
  · intro h
    split at h
    · rename_i condition conditions hread
      obtain rfl := Option.some.inj h
      obtain ⟨pieces, hwell, hmaximal, hcs, hconditions⟩ := exists_pieces_of_readConditions? hread
      refine ⟨pieces, ⟨?_, hcs, hwell, hmaximal⟩, hconditions⟩
      rintro rfl
      simp at hconditions
    · simp at h
  · rintro ⟨pieces, ⟨hne, hcs, hwell, hmaximal⟩, rfl⟩
    obtain ⟨p, pieces, rfl⟩ := List.exists_cons_of_ne_nil hne
    rw [hcs, readConditions?_written hwell hmaximal (Nat.le_refl _)]
    rfl

theorem parse?_eq_none_iff {text : String} : parse? text = none ↔ ∀ pieces, ¬ Spells text pieces := by
  rw [Option.eq_none_iff_forall_ne_some]
  constructor
  · intro h pieces hspells
    exact h _ (parse?_eq_some_iff.2 ⟨pieces, hspells, rfl⟩)
  · intro h selector hparse
    obtain ⟨pieces, hspells, -⟩ := parse?_eq_some_iff.1 hparse
    exact h pieces hspells

end PageBindings.Selector
