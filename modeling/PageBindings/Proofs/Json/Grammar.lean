import PageBindings.Proofs.Json.RoundTrip

/-!
# The grammar of JSON texts

`ValueAt cs v rest` says that `cs` begins with a text of the value `v`, and that `rest` follows it; the other
relations here say the same of what a value is made of.  Reading accepts exactly the texts of the grammar, with the
values that the grammar gives them (`isText_iff_read?`, `parseWithin?_eq_some_iff`).  So a text has one value at most
(`IsText.unique`).
-/

namespace PageBindings.Json

/-! ### The grammar -/

/-- White space may come first. -/
def SpaceAt (cs rest : List Char) : Prop :=
  ∃ space, cs = space ++ rest ∧ ∀ c ∈ space, c = ' ' ∨ c = '\t' ∨ c = '\n' ∨ c = '\r'

/-- The rest of a string comes first, with its closing quote. -/
inductive StringAt : List Char → List Piece → List Char → Prop where
  | closing {rest : List Char} : StringAt ('"' :: rest) [] rest
  | plain {c : Char} {cs rest : List Char} {pieces : List Piece} (hquote : c ≠ '"') (hbackslash : c ≠ '\\')
      (hcontrol : 0x20 ≤ c.toNat) (more : StringAt cs pieces rest) : StringAt (c :: cs) (.char c :: pieces) rest
  | escape {e c : Char} {cs rest : List Char} {pieces : List Piece} (h : simpleEscape? e = some c)
      (more : StringAt cs pieces rest) : StringAt ('\\' :: e :: cs) (.char c :: pieces) rest
  | unit {h₁ h₂ h₃ h₄ : Char} {code : Nat} {cs rest : List Char} {pieces : List Piece}
      (h : unit? h₁ h₂ h₃ h₄ = some code) (more : StringAt cs pieces rest) :
      StringAt ('\\' :: 'u' :: h₁ :: h₂ :: h₃ :: h₄ :: cs) (.unit code :: pieces) rest

/-- The name of a member comes first, with the colon after it. -/
def NameAt (cs : List Char) (name : List Piece) (rest : List Char) : Prop :=
  ∃ inner after, SpaceAt cs ('"' :: inner) ∧ StringAt inner name after ∧ SpaceAt after (':' :: rest)

mutual

/-- A value comes first. -/
inductive ValueAt : List Char → Raw → List Char → Prop where
  | null {rest : List Char} : ValueAt ('n' :: 'u' :: 'l' :: 'l' :: rest) .null rest
  | true {rest : List Char} : ValueAt ('t' :: 'r' :: 'u' :: 'e' :: rest) (.bool true) rest
  | false {rest : List Char} : ValueAt ('f' :: 'a' :: 'l' :: 's' :: 'e' :: rest) (.bool false) rest
  | number {cs rest : List Char} {n : Numeral} (h : Numeral.IsText cs n) : ValueAt (cs ++ rest) (.number n) rest
  | string {cs rest : List Char} {pieces : List Piece} (h : StringAt cs pieces rest) :
      ValueAt ('"' :: cs) (.string pieces) rest
  | noItems {cs rest : List Char} (h : SpaceAt cs (']' :: rest)) : ValueAt ('[' :: cs) (.array []) rest
  | array {cs rest : List Char} {items : List Raw} (h : ItemsAt cs items rest) :
      ValueAt ('[' :: cs) (.array items) rest
  | noMembers {cs rest : List Char} (h : SpaceAt cs ('\x7d' :: rest)) : ValueAt ('\x7b' :: cs) (.object []) rest
  | object {cs rest : List Char} {members : List (List Piece × Raw)} (h : MembersAt cs members rest) :
      ValueAt ('\x7b' :: cs) (.object members) rest

/-- A value with white space around it comes first. -/
inductive ElementAt : List Char → Raw → List Char → Prop where
  | intro {cs inner after rest : List Char} {v : Raw} (before : SpaceAt cs inner) (value : ValueAt inner v after)
      (space : SpaceAt after rest) : ElementAt cs v rest

/-- The items of an array come first, with its closing bracket. -/
inductive ItemsAt : List Char → List Raw → List Char → Prop where
  | last {cs rest : List Char} {v : Raw} (item : ElementAt cs v (']' :: rest)) : ItemsAt cs [v] rest
  | next {cs more rest : List Char} {v : Raw} {items : List Raw} (item : ElementAt cs v (',' :: more))
      (others : ItemsAt more items rest) : ItemsAt cs (v :: items) rest

/-- The members of an object come first, with its closing brace. -/
inductive MembersAt : List Char → List (List Piece × Raw) → List Char → Prop where
  | last {cs inner rest : List Char} {name : List Piece} {v : Raw} (hname : NameAt cs name inner)
      (value : ElementAt inner v ('\x7d' :: rest)) : MembersAt cs [(name, v)] rest
  | next {cs inner more rest : List Char} {name : List Piece} {v : Raw} {members : List (List Piece × Raw)}
      (hname : NameAt cs name inner) (value : ElementAt inner v (',' :: more))
      (others : MembersAt more members rest) :
      MembersAt cs ((name, v) :: members) rest

end

/-- The text is a value, with white space around it. -/
def IsText (text : List Char) (v : Raw) : Prop :=
  ElementAt text v []

/-- A string, with the text that it stands for. -/
def Raw.Spells (raw : Raw) (text : String) : Prop :=
  ∃ pieces, raw = .string pieces ∧ textOf? pieces = some text

variable {cs cs' rest : List Char} {c : Char} {v v' : Raw} {pieces : List Piece} {items : List Raw}
  {members : List (List Piece × Raw)} {fuel : Nat}

/-! ### White space and strings -/

theorem spaceAt_skipSpace (cs : List Char) : SpaceAt cs (skipSpace cs) := by
  refine ⟨_, List.takeWhile_append_dropWhile.symm, fun c hc => ?_⟩
  have h := List.all_eq_true.1 List.all_takeWhile c hc
  simpa [or_assoc] using h

theorem SpaceAt.refl (cs : List Char) : SpaceAt cs cs :=
  ⟨[], rfl, by simp⟩

theorem SpaceAt.skipSpace_eq (h : SpaceAt cs rest) : skipSpace cs = skipSpace rest := by
  obtain ⟨space, rfl, hspace⟩ := h
  refine List.dropWhile_append_of_pos fun c hc => ?_
  rcases hspace c hc with rfl | rfl | rfl | rfl <;> rfl

theorem SpaceAt.length_le (h : SpaceAt cs rest) : rest.length ≤ cs.length := by
  obtain ⟨space, rfl, -⟩ := h
  rw [List.length_append]
  exact Nat.le_add_left _ _

theorem spaceAt_of_skipSpace_eq (h : skipSpace cs = rest) : SpaceAt cs rest :=
  h ▸ spaceAt_skipSpace cs

/-- White space before something else ends before it. -/
theorem SpaceAt.skipSpace_of_cons (h : SpaceAt cs (c :: rest)) (hc : c ∉ [' ', '\t', '\n', '\r']) :
    skipSpace cs = c :: rest :=
  h.skipSpace_eq.trans (skipSpace_cons hc)

theorem readPieces?_eq_some_iff : readPieces? cs = some (pieces, rest) ↔ StringAt cs pieces rest := by
  constructor
  · intro h
    fun_induction readPieces? cs generalizing pieces with
    | case1 => simp at h
    | case2 cs =>
      obtain ⟨rfl, rfl⟩ := Prod.mk.inj (Option.some.inj h)
      exact .closing
    | case3 h₁ h₂ h₃ h₄ cs ih =>
      obtain ⟨code, hcode, h⟩ := Option.bind_eq_some_iff.1 h
      obtain ⟨⟨more, after⟩, hmore, h⟩ := Option.bind_eq_some_iff.1 h
      obtain ⟨rfl, rfl⟩ := Prod.mk.inj (Option.some.inj h)
      exact .unit hcode (ih hmore)
    | case4 e cs hunit ih =>
      obtain ⟨c, hc, h⟩ := Option.bind_eq_some_iff.1 h
      obtain ⟨⟨more, after⟩, hmore, h⟩ := Option.bind_eq_some_iff.1 h
      obtain ⟨rfl, rfl⟩ := Prod.mk.inj (Option.some.inj h)
      exact .escape hc (ih hmore)
    | case5 => simp at h
    | case6 c cs hquote hunit hescape hplain ih =>
      obtain ⟨⟨more, after⟩, hmore, h⟩ := Option.map_eq_some_iff.1 h
      obtain ⟨rfl, rfl⟩ := Prod.mk.inj h
      rw [Bool.or_eq_true, not_or, decide_eq_true_eq, beq_iff_eq] at hplain
      exact .plain hquote hplain.2 (by omega) (ih hmore)
  · intro h
    induction h with
    | closing => rw [readPieces?]
    | plain hquote hbackslash hcontrol more ih =>
      rw [readPieces?_plain hquote hbackslash (by omega), ih]
      rfl
    | escape h more ih =>
      rw [readPieces?_simple h, ih]
      rfl
    | unit h more ih =>
      rw [readPieces?, h, ih]
      rfl

/-! ### Lengths -/

theorem Numeral.IsText.length_pos {n : Numeral} (h : Numeral.IsText cs n) : 0 < cs.length := by
  obtain ⟨c, more, rfl, -⟩ := h.exists_cons
  exact Nat.succ_pos _

theorem StringAt.length_lt (h : StringAt cs pieces rest) : rest.length < cs.length := by
  induction h with
  | closing => exact Nat.lt_succ_self _
  | plain hquote hbackslash hcontrol more ih => exact Nat.lt_succ_of_lt ih
  | escape h more ih => exact Nat.lt_succ_of_lt (Nat.lt_succ_of_lt ih)
  | unit h more ih =>
    simp only [List.length_cons]
    omega

theorem NameAt.length_lt (h : NameAt cs pieces rest) : rest.length < cs.length := by
  obtain ⟨inner, after, hopen, hstring, hcolon⟩ := h
  have hinner := hopen.length_le
  have hafter := hcolon.length_le
  have hstring := hstring.length_lt
  rw [List.length_cons] at hinner hafter
  omega

mutual

theorem ValueAt.length_lt :
    ∀ {cs : List Char} {v : Raw} {rest : List Char}, ValueAt cs v rest → rest.length < cs.length
  | _, _, _, .null | _, _, _, .true | _, _, _, .false => by
    simp only [List.length_cons]
    omega
  | _, _, _, .number h => by
    have hpos := h.length_pos
    rw [List.length_append]
    omega
  | _, _, _, .string h => Nat.lt_succ_of_lt h.length_lt
  | _, _, _, .noItems h | _, _, _, .noMembers h => Nat.lt_succ_of_lt h.length_le
  | _, _, _, .array h => Nat.lt_succ_of_lt h.length_lt
  | _, _, _, .object h => Nat.lt_succ_of_lt h.length_lt

theorem ElementAt.length_lt : ∀ {cs : List Char} {v : Raw} {rest : List Char}, ElementAt cs v rest →
    rest.length < cs.length
  | _, _, _, .intro before value space =>
    Nat.lt_of_le_of_lt space.length_le (Nat.lt_of_lt_of_le value.length_lt before.length_le)

theorem ItemsAt.length_lt : ∀ {cs : List Char} {items : List Raw} {rest : List Char}, ItemsAt cs items rest →
    rest.length < cs.length
  | _, _, _, .last item => Nat.lt_of_succ_lt item.length_lt
  | _, _, _, .next item others => Nat.lt_trans others.length_lt (Nat.lt_of_succ_lt item.length_lt)

theorem MembersAt.length_lt : ∀ {cs : List Char} {members : List (List Piece × Raw)} {rest : List Char},
    MembersAt cs members rest → rest.length < cs.length
  | _, _, _, .last hname value => Nat.lt_trans (Nat.lt_of_succ_lt value.length_lt) hname.length_lt
  | _, _, _, .next hname value others =>
    Nat.lt_trans others.length_lt (Nat.lt_trans (Nat.lt_of_succ_lt value.length_lt) hname.length_lt)

end

/-! ### Texts are read -/

private theorem readWithin?_congr (h : skipSpace cs = skipSpace cs') :
    Raw.readWithin? fuel cs = Raw.readWithin? fuel cs' := by
  cases fuel with
  | zero => rfl
  | succ fuel => rw [Raw.readWithin?, Raw.readWithin?, h]

private theorem readItems?_congr (h : skipSpace cs = skipSpace cs') :
    Raw.readItems? fuel cs = Raw.readItems? fuel cs' := by
  cases fuel with
  | zero => rfl
  | succ fuel => rw [Raw.readItems?, Raw.readItems?, readWithin?_congr h]

private theorem readMembers?_congr (h : skipSpace cs = skipSpace cs') :
    Raw.readMembers? fuel cs = Raw.readMembers? fuel cs' := by
  cases fuel with
  | zero => rfl
  | succ fuel => rw [Raw.readMembers?, Raw.readMembers?, h]

theorem skipSpace_idem (cs : List Char) : skipSpace (skipSpace cs) = skipSpace cs :=
  (spaceAt_skipSpace cs).skipSpace_eq.symm

/-- A value begins with no white space, and with nothing that would end an array. -/
theorem ValueAt.exists_cons (h : ValueAt cs v rest) :
    ∃ c more, cs = c :: more ∧ c ∉ [' ', '\t', '\n', '\r', ']'] := by
  cases h with
  | number h =>
    obtain ⟨c, more, rfl, hc⟩ := h.exists_cons
    refine ⟨c, _, rfl, fun hmem => ?_⟩
    simp only [List.mem_cons, List.not_mem_nil, or_false] at hmem
    rcases hmem with rfl | rfl | rfl | rfl | rfl <;> simp at hc
  | null | true | false | string _ | noItems _ | array _ | noMembers _ | object _ => exact ⟨_, _, rfl, by decide⟩

/-- What an array consists of. -/
theorem valueAt_array_iff : ValueAt cs (.array items) rest ↔
    ∃ inner, cs = '[' :: inner ∧ (items = [] ∧ SpaceAt inner (']' :: rest) ∨ ItemsAt inner items rest) := by
  constructor
  · intro h
    cases h with
    | noItems h => exact ⟨_, rfl, .inl ⟨rfl, h⟩⟩
    | array h => exact ⟨_, rfl, .inr h⟩
  · rintro ⟨inner, rfl, ⟨rfl, h⟩ | h⟩
    · exact .noItems h
    · exact .array h

/-- What an object consists of. -/
theorem valueAt_object_iff : ValueAt cs (.object members) rest ↔
    ∃ inner, cs = '\x7b' :: inner ∧
      (members = [] ∧ SpaceAt inner ('\x7d' :: rest) ∨ MembersAt inner members rest) := by
  constructor
  · intro h
    cases h with
    | noMembers h => exact ⟨_, rfl, .inl ⟨rfl, h⟩⟩
    | object h => exact ⟨_, rfl, .inr h⟩
  · rintro ⟨inner, rfl, ⟨rfl, h⟩ | h⟩
    · exact .noMembers h
    · exact .object h

theorem ElementAt.skipSpace_ne (h : ElementAt cs v rest) (more : List Char) : skipSpace cs ≠ ']' :: more := by
  obtain ⟨before, value, -⟩ := h
  obtain ⟨c, tail, rfl, hc⟩ := value.exists_cons
  rw [before.skipSpace_of_cons fun hspace => hc (List.mem_append_left [']'] hspace)]
  intro heq
  exact hc (by simp [(List.cons.inj heq).1])

theorem ItemsAt.skipSpace_ne (h : ItemsAt cs items rest) (more : List Char) : skipSpace cs ≠ ']' :: more := by
  cases h with
  | last item => exact item.skipSpace_ne more
  | next item others => exact item.skipSpace_ne more

theorem NameAt.exists_skipSpace (h : NameAt cs pieces rest) : ∃ inner after, skipSpace cs = '"' :: inner ∧
    readPieces? inner = some (pieces, after) ∧ skipSpace after = ':' :: rest := by
  obtain ⟨inner, after, hopen, hstring, hcolon⟩ := h
  exact ⟨inner, after, hopen.skipSpace_of_cons (by decide), readPieces?_eq_some_iff.2 hstring,
    hcolon.skipSpace_of_cons (by decide)⟩

theorem MembersAt.exists_skipSpace (h : MembersAt cs members rest) : ∃ inner, skipSpace cs = '"' :: inner := by
  cases h with
  | last hname _ | next hname _ _ =>
    obtain ⟨inner, -, hopen, -⟩ := hname.exists_skipSpace
    exact ⟨inner, hopen⟩

theorem MembersAt.skipSpace_ne (h : MembersAt cs members rest) (more : List Char) :
    skipSpace cs ≠ '\x7d' :: more := by
  obtain ⟨inner, hopen⟩ := h.exists_skipSpace
  intro heq
  rw [hopen] at heq
  exact absurd (List.cons.inj heq).1 (by decide)

/-- What follows the white space after a value does not go on with a number either. -/
theorem SpaceAt.stopsNumber (h : SpaceAt cs rest) (hrest : EndsValue rest) : StopsNumber cs := by
  obtain ⟨space, rfl, hspace⟩ := h
  cases space with
  | nil => exact hrest.stopsNumber
  | cons c space =>
    intro x hx
    obtain rfl := Option.some.inj hx
    rcases hspace c List.mem_cons_self with rfl | rfl | rfl | rfl <;> decide

theorem EndsValue.skipSpace_eq (h : EndsValue rest) : skipSpace rest = rest := by
  cases rest with
  | nil => rfl
  | cons c rest =>
    refine skipSpace_cons ?_
    rcases h c rfl with rfl | rfl | rfl <;> decide

private theorem readWithin?_quote (fuel : Nat) (cs : List Char) : Raw.readWithin? (fuel + 1) ('"' :: cs) =
    (readPieces? cs).map fun read => (.string read.1, read.2) :=
  rfl

private theorem readWithin?_bracket (h : ∀ more, skipSpace cs ≠ ']' :: more) (fuel : Nat) :
    Raw.readWithin? (fuel + 1) ('[' :: cs) = (Raw.readItems? fuel cs).map fun read => (.array read.1, read.2) := by
  rw [Raw.readWithin?, skipSpace_cons (by decide), ← readItems?_congr (skipSpace_idem cs)]
  -- by `h` the array does not end at once
  simp only

private theorem readWithin?_brace (h : ∀ more, skipSpace cs ≠ '\x7d' :: more) (fuel : Nat) :
    Raw.readWithin? (fuel + 1) ('\x7b' :: cs) =
      (Raw.readMembers? fuel cs).map fun read => (.object read.1, read.2) := by
  rw [Raw.readWithin?, skipSpace_cons (by decide), ← readMembers?_congr (skipSpace_idem cs)]
  -- by `h` the object does not end at once
  simp only

mutual

theorem readWithin?_of_valueAt : ∀ {cs : List Char} {v : Raw} {rest : List Char} {fuel : Nat}, ValueAt cs v rest →
    StopsNumber rest → 2 * cs.length ≤ fuel → Raw.readWithin? fuel cs = some (v, rest)
  | _, _, _, 0, h, _, hfuel => by
    have hlt := h.length_lt
    omega
  | _, _, _, fuel + 1, .null, _, _ | _, _, _, fuel + 1, .true, _, _ | _, _, _, fuel + 1, .false, _, _ => rfl
  | _, _, _, fuel + 1, .number h, hrest, _ => readWithin?_numeral h hrest fuel
  | _, _, _, fuel + 1, .string h, _, _ => by
    rw [readWithin?_quote, readPieces?_eq_some_iff.2 h]
    rfl
  | _, _, _, fuel + 1, .noItems h, _, _ => by
    rw [Raw.readWithin?, skipSpace_cons (by decide)]
    simp only [h.skipSpace_of_cons (c := ']') (by decide)]
  | _, _, _, fuel + 1, .array h, _, hfuel => by
    rw [List.length_cons] at hfuel
    rw [readWithin?_bracket h.skipSpace_ne, readItems?_of_itemsAt h (by omega)]
    rfl
  | _, _, _, fuel + 1, .noMembers h, _, _ => by
    rw [Raw.readWithin?, skipSpace_cons (by decide)]
    simp only [h.skipSpace_of_cons (c := '\x7d') (by decide)]
  | _, _, _, fuel + 1, .object h, _, hfuel => by
    rw [List.length_cons] at hfuel
    rw [readWithin?_brace h.skipSpace_ne, readMembers?_of_membersAt h (by omega)]
    rfl

theorem readWithin?_of_elementAt : ∀ {cs : List Char} {v : Raw} {rest : List Char} {fuel : Nat}, ElementAt cs v rest →
    EndsValue rest → 2 * cs.length ≤ fuel →
      ∃ after, Raw.readWithin? fuel cs = some (v, after) ∧ skipSpace after = rest
  | _, _, _, fuel, .intro before value space, hrest, hfuel => by
    have hlength := before.length_le
    have hread := readWithin?_of_valueAt value (space.stopsNumber hrest) (show 2 * _ ≤ fuel by omega)
    refine ⟨_, ?_, space.skipSpace_eq.trans hrest.skipSpace_eq⟩
    rw [readWithin?_congr before.skipSpace_eq, hread]

theorem readItems?_of_itemsAt : ∀ {cs : List Char} {items : List Raw} {rest : List Char} {fuel : Nat},
    ItemsAt cs items rest → 2 * cs.length + 1 ≤ fuel → Raw.readItems? fuel cs = some (items, rest)
  | _, _, _, 0, _, hfuel => absurd hfuel (by omega)
  | _, _, rest, fuel + 1, .last item, hfuel => by
    obtain ⟨after, hread, hafter⟩ := readWithin?_of_elementAt item (by simp [EndsValue]) (show 2 * _ ≤ fuel by omega)
    simp [Raw.readItems?, hread, hafter]
  | _, _, rest, fuel + 1, .next item others, hfuel => by
    have hlength := item.length_lt
    rw [List.length_cons] at hlength
    obtain ⟨after, hread, hafter⟩ := readWithin?_of_elementAt item (by simp [EndsValue]) (show 2 * _ ≤ fuel by omega)
    have hothers := readItems?_of_itemsAt others (show 2 * _ + 1 ≤ fuel by omega)
    simp [Raw.readItems?, hread, hafter, hothers]

theorem readMembers?_of_membersAt : ∀ {cs : List Char} {members : List (List Piece × Raw)} {rest : List Char}
    {fuel : Nat}, MembersAt cs members rest → 2 * cs.length + 1 ≤ fuel →
      Raw.readMembers? fuel cs = some (members, rest)
  | _, _, _, 0, _, hfuel => absurd hfuel (by omega)
  | _, _, rest, fuel + 1, .last hname value, hfuel => by
    have hlength := hname.length_lt
    obtain ⟨inner, close, hopen, hstring, hcolon⟩ := hname.exists_skipSpace
    obtain ⟨after, hread, hafter⟩ := readWithin?_of_elementAt value (by simp [EndsValue]) (show 2 * _ ≤ fuel by omega)
    simp [Raw.readMembers?, hopen, hstring, hcolon, hread, hafter]
  | _, _, rest, fuel + 1, .next hname value others, hfuel => by
    have hlength := hname.length_lt
    have hmore := value.length_lt
    rw [List.length_cons] at hmore
    obtain ⟨inner, close, hopen, hstring, hcolon⟩ := hname.exists_skipSpace
    obtain ⟨after, hread, hafter⟩ := readWithin?_of_elementAt value (by simp [EndsValue]) (show 2 * _ ≤ fuel by omega)
    have hothers := readMembers?_of_membersAt others (show 2 * _ + 1 ≤ fuel by omega)
    simp [Raw.readMembers?, hopen, hstring, hcolon, hread, hafter, hothers]

end

/-! ### White space in front -/

theorem SpaceAt.of_skipSpace (h : SpaceAt (skipSpace cs) rest) : SpaceAt cs rest := by
  obtain ⟨space, heq, hspace⟩ := h
  obtain ⟨first, hfirst, hall⟩ := spaceAt_skipSpace cs
  refine ⟨first ++ space, ?_, List.forall_mem_append.2 ⟨hall, hspace⟩⟩
  rw [List.append_assoc, ← heq]
  exact hfirst

/-- Where something begins that is no white space. -/
theorem SpaceAt.of_cons (h : SpaceAt cs (c :: rest)) (hc : c ∉ [' ', '\t', '\n', '\r']) :
    SpaceAt (skipSpace cs) (c :: rest) :=
  h.skipSpace_of_cons hc ▸ SpaceAt.refl _

theorem spaceAt_cons_iff (hc : c ∉ [' ', '\t', '\n', '\r']) : SpaceAt cs (c :: rest) ↔ skipSpace cs = c :: rest :=
  ⟨fun h => h.skipSpace_of_cons hc, spaceAt_of_skipSpace_eq⟩

theorem ElementAt.skipSpace_iff : ElementAt (skipSpace cs) v rest ↔ ElementAt cs v rest := by
  constructor
  · rintro ⟨before, value, space⟩
    exact .intro before.of_skipSpace value space
  · rintro ⟨before, value, space⟩
    obtain ⟨c, more, rfl, hc⟩ := value.exists_cons
    exact .intro (before.of_cons fun h => hc (List.mem_append_left [']'] h)) value space

theorem ItemsAt.skipSpace_iff : ItemsAt (skipSpace cs) items rest ↔ ItemsAt cs items rest := by
  constructor
  · rintro (item | ⟨item, others⟩)
    · exact .last (ElementAt.skipSpace_iff.1 item)
    · exact .next (ElementAt.skipSpace_iff.1 item) others
  · rintro (item | ⟨item, others⟩)
    · exact .last (ElementAt.skipSpace_iff.2 item)
    · exact .next (ElementAt.skipSpace_iff.2 item) others

theorem NameAt.skipSpace_iff {name : List Piece} : NameAt (skipSpace cs) name rest ↔ NameAt cs name rest := by
  constructor
  · rintro ⟨inner, after, hopen, hname, hcolon⟩
    exact ⟨inner, after, hopen.of_skipSpace, hname, hcolon⟩
  · rintro ⟨inner, after, hopen, hname, hcolon⟩
    exact ⟨inner, after, hopen.of_cons (by decide), hname, hcolon⟩

theorem MembersAt.skipSpace_iff : MembersAt (skipSpace cs) members rest ↔ MembersAt cs members rest := by
  constructor
  · rintro (⟨hname, value⟩ | ⟨hname, value, others⟩)
    · exact .last (NameAt.skipSpace_iff.1 hname) value
    · exact .next (NameAt.skipSpace_iff.1 hname) value others
  · rintro (⟨hname, value⟩ | ⟨hname, value, others⟩)
    · exact .last (NameAt.skipSpace_iff.2 hname) value
    · exact .next (NameAt.skipSpace_iff.2 hname) value others

theorem ElementAt.skipSpace_ne_nil (h : ElementAt cs v rest) : skipSpace cs ≠ [] := by
  obtain ⟨before, value, -⟩ := h
  obtain ⟨c, more, rfl, hc⟩ := value.exists_cons
  rw [before.skipSpace_of_cons fun h => hc (List.mem_append_left [']'] h)]
  exact List.cons_ne_nil c more

theorem ItemsAt.skipSpace_ne_nil (h : ItemsAt cs items rest) : skipSpace cs ≠ [] := by
  cases h with
  | last item => exact item.skipSpace_ne_nil
  | next item others => exact item.skipSpace_ne_nil

/-! ### What was read is in the grammar -/

/-- Readers with this much fuel read off what the grammar allows. -/
private structure Sound (fuel : Nat) : Prop where
  value {cs : List Char} {v : Raw} {rest : List Char} (h : Raw.readWithin? fuel cs = some (v, rest)) :
    ∃ inner, SpaceAt cs inner ∧ ValueAt inner v rest
  items {cs : List Char} {items : List Raw} {rest : List Char} (h : Raw.readItems? fuel cs = some (items, rest)) :
    ItemsAt cs items rest
  members {cs : List Char} {members : List (List Piece × Raw)} {rest : List Char}
    (h : Raw.readMembers? fuel cs = some (members, rest)) : MembersAt cs members rest

private theorem Sound.exists_valueAt (ih : Sound fuel) (h : Raw.readWithin? (fuel + 1) cs = some (v, rest)) :
    ∃ inner, SpaceAt cs inner ∧ ValueAt inner v rest := by
  refine ⟨skipSpace cs, spaceAt_skipSpace cs, ?_⟩
  unfold Raw.readWithin? at h
  split at h
  · rename_i inner hinner
    obtain ⟨⟨pieces, after⟩, hread, heq⟩ := Option.map_eq_some_iff.1 h
    obtain ⟨rfl, rfl⟩ := Prod.mk.inj heq
    rw [hinner]
    exact .string (readPieces?_eq_some_iff.1 hread)
  · rename_i inner hinner
    rw [hinner]
    split at h
    · rename_i after hafter
      obtain ⟨rfl, rfl⟩ := Prod.mk.inj (Option.some.inj h)
      exact .noItems (spaceAt_of_skipSpace_eq hafter)
    · obtain ⟨⟨items, after⟩, hread, heq⟩ := Option.map_eq_some_iff.1 h
      obtain ⟨rfl, rfl⟩ := Prod.mk.inj heq
      exact .array (ItemsAt.skipSpace_iff.1 (ih.items hread))
  · rename_i inner hinner
    rw [hinner]
    split at h
    · rename_i after hafter
      obtain ⟨rfl, rfl⟩ := Prod.mk.inj (Option.some.inj h)
      exact .noMembers (spaceAt_of_skipSpace_eq hafter)
    · obtain ⟨⟨members, after⟩, hread, heq⟩ := Option.map_eq_some_iff.1 h
      obtain ⟨rfl, rfl⟩ := Prod.mk.inj heq
      exact .object (MembersAt.skipSpace_iff.1 (ih.members hread))
  · rename_i inner hinner
    obtain ⟨rfl, rfl⟩ := Prod.mk.inj (Option.some.inj h)
    rw [hinner]
    exact .null
  · rename_i inner hinner
    obtain ⟨rfl, rfl⟩ := Prod.mk.inj (Option.some.inj h)
    rw [hinner]
    exact .true
  · rename_i inner hinner
    obtain ⟨rfl, rfl⟩ := Prod.mk.inj (Option.some.inj h)
    rw [hinner]
    exact .false
  · obtain ⟨⟨numeral, after⟩, hread, heq⟩ := Option.map_eq_some_iff.1 h
    obtain ⟨rfl, rfl⟩ := Prod.mk.inj heq
    obtain ⟨text, htext, hinner⟩ := isText_of_readNumeral? hread
    rw [hinner]
    exact .number htext

/-- What was read as a value, and the white space after it. -/
private theorem Sound.elementAt {after : List Char} (ih : Sound fuel) (h : Raw.readWithin? fuel cs = some (v, after))
    (hafter : skipSpace after = rest) : ElementAt cs v rest := by
  obtain ⟨inner, before, value⟩ := ih.value h
  exact .intro before value (spaceAt_of_skipSpace_eq hafter)

private theorem Sound.itemsAt (ih : Sound fuel) (h : Raw.readItems? (fuel + 1) cs = some (items, rest)) :
    ItemsAt cs items rest := by
  unfold Raw.readItems? at h
  obtain ⟨⟨v, after⟩, hvalue, h⟩ := Option.bind_eq_some_iff.1 h
  dsimp only at h
  split at h
  · rename_i more hmore
    obtain ⟨⟨others, last⟩, hread, h⟩ := Option.bind_eq_some_iff.1 h
    obtain ⟨rfl, rfl⟩ := Prod.mk.inj (Option.some.inj h)
    exact .next (ih.elementAt hvalue hmore) (ih.items hread)
  · rename_i more hmore
    obtain ⟨rfl, rfl⟩ := Prod.mk.inj (Option.some.inj h)
    exact .last (ih.elementAt hvalue hmore)
  · simp at h

private theorem Sound.membersAt (ih : Sound fuel) (h : Raw.readMembers? (fuel + 1) cs = some (members, rest)) :
    MembersAt cs members rest := by
  unfold Raw.readMembers? at h
  split at h
  · rename_i inner hinner
    obtain ⟨⟨name, close⟩, hname, h⟩ := Option.bind_eq_some_iff.1 h
    dsimp only at h
    split at h
    · rename_i colon hcolon
      obtain ⟨⟨v, after⟩, hvalue, h⟩ := Option.bind_eq_some_iff.1 h
      have hnameAt : NameAt cs name colon :=
        ⟨inner, close, spaceAt_of_skipSpace_eq hinner, readPieces?_eq_some_iff.1 hname,
          spaceAt_of_skipSpace_eq hcolon⟩
      dsimp only at h
      split at h
      · rename_i more hmore
        obtain ⟨⟨others, last⟩, hread, h⟩ := Option.bind_eq_some_iff.1 h
        obtain ⟨rfl, rfl⟩ := Prod.mk.inj (Option.some.inj h)
        exact .next hnameAt (ih.elementAt hvalue hmore) (ih.members hread)
      · rename_i more hmore
        obtain ⟨rfl, rfl⟩ := Prod.mk.inj (Option.some.inj h)
        exact .last hnameAt (ih.elementAt hvalue hmore)
      · simp at h
    · simp at h
  · simp at h

/-- The three readers call each other with less fuel, so one induction carries them. -/
private theorem sound (fuel : Nat) : Sound fuel := by
  induction fuel with
  | zero => exact ⟨by simp [Raw.readWithin?], by simp [Raw.readItems?], by simp [Raw.readMembers?]⟩
  | succ fuel ih => exact ⟨ih.exists_valueAt, ih.itemsAt, ih.membersAt⟩

/-! ### Whole texts -/

/-- A value that was read is in the grammar. -/
theorem exists_valueAt_of_read? (h : Raw.read? cs = some (v, rest)) :
    ∃ inner, SpaceAt cs inner ∧ ValueAt inner v rest :=
  (sound _).value h

/-- A value of the grammar is read. -/
theorem read?_of_elementAt (h : ElementAt cs v rest) (hrest : EndsValue rest) :
    ∃ after, Raw.read? cs = some (v, after) ∧ skipSpace after = rest :=
  readWithin?_of_elementAt h hrest (Nat.le_succ _)

/-- The texts that are read to their end are those of the grammar. -/
theorem isText_iff_read? : IsText cs v ↔ ∃ after, Raw.read? cs = some (v, after) ∧ skipSpace after = [] := by
  constructor
  · exact fun h => read?_of_elementAt h (by simp [EndsValue])
  · rintro ⟨after, hread, hafter⟩
    obtain ⟨inner, before, value⟩ := exists_valueAt_of_read? hread
    exact .intro before value (spaceAt_of_skipSpace_eq hafter)

/-- A text is a text of one value. -/
theorem IsText.unique (h : IsText cs v) (h' : IsText cs v') : v = v' := by
  obtain ⟨after, hread, -⟩ := isText_iff_read?.1 h
  obtain ⟨after', hread', -⟩ := isText_iff_read?.1 h'
  rw [hread] at hread'
  exact (Prod.mk.inj (Option.some.inj hread')).1

/-- What a text is read as: the value it is a text of, if this is within the limits. -/
theorem parseWithin?_eq_some_iff {limit : Nat} {text : String} {value : Json} :
    parseWithin? limit text = some value ↔ ∃ raw, IsText text.toList raw ∧ ofRaw? limit raw = some value := by
  unfold parseWithin?
  constructor
  · intro h
    obtain ⟨⟨raw, after⟩, hread, h⟩ := Option.bind_eq_some_iff.1 h
    dsimp only at h
    split at h
    · rename_i hempty
      exact ⟨raw, isText_iff_read?.2 ⟨after, hread, List.isEmpty_iff.1 hempty⟩, h⟩
    · simp at h
  · rintro ⟨raw, htext, hvalue⟩
    obtain ⟨after, hread, hafter⟩ := isText_iff_read?.1 htext
    rw [hread]
    show (if (skipSpace after).isEmpty then ofRaw? limit raw else none) = some value
    rw [hafter]
    exact hvalue

end PageBindings.Json
