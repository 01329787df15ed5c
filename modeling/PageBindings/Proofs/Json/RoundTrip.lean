import PageBindings.Proofs.Json.Number

/-!
# Reading what was written

A value is written as one `Raw` (`toRaw`), which is recognised in its text (`readWithin?_write`) and determines it
(`toRaw_injective`); so different values have different texts (`render_injective`).  The text is read as the same
value if its objects are sorted by name, it is not nested too deeply and its doubles read back (`parse?_render`).
Every value that was read is sorted and within the limit (`isSorted_of_parse?`).
-/

namespace PageBindings.Json

/-! ### Strings -/

/-- The piece as which a written character is read. -/
def pieceOf (c : Char) : Piece :=
  if c.toNat < 0x20 ∧ c ∉ ['\x08', '\t', '\n', '\x0c', '\r'] then .unit c.toNat else .char c

section Strings

variable {rest : List Char}

theorem readPieces?_simple {e c : Char} (h : simpleEscape? e = some c) :
    readPieces? ('\\' :: e :: rest) = (readPieces? rest).map fun read => (.char c :: read.1, read.2) := by
  have hu : e ≠ 'u' := by
    rintro rfl
    simp [simpleEscape?] at h
  rw [readPieces?]
  · rw [h]
    cases readPieces? rest with
    | none => rfl
    | some read => rfl
  · exact fun _ _ _ _ _ he _ => hu he

private theorem hexValue?_hexDigitLower {n : Nat} (h : n < 16) : hexValue? (hexDigitLower n) = some n := by
  have hall : ∀ n < 16, hexValue? (hexDigitLower n) = some n := by decide
  exact hall n h

private theorem readPieces?_unit {n : Nat} (h : n < 0x20) :
    readPieces? ('\\' :: 'u' :: '0' :: '0' :: hexDigitLower (n / 16) :: hexDigitLower (n % 16) :: rest) =
      (readPieces? rest).map fun read => (.unit n :: read.1, read.2) := by
  have hzero : hexValue? '0' = some 0 := by decide
  have hunit : unit? '0' '0' (hexDigitLower (n / 16)) (hexDigitLower (n % 16)) = some n := by
    unfold unit?
    rw [hzero, hexValue?_hexDigitLower (by omega), hexValue?_hexDigitLower (by omega)]
    exact congrArg some (by omega)
  rw [readPieces?, hunit]
  cases readPieces? rest with
  | none => rfl
  | some read => rfl

theorem readPieces?_plain {c : Char} (hquote : c ≠ '"') (hbackslash : c ≠ '\\') (h : ¬c.toNat < 0x20) :
    readPieces? (c :: rest) = (readPieces? rest).map fun read => (.char c :: read.1, read.2) := by
  rw [readPieces?]
  · simp [h, hbackslash]
  · exact fun h => hquote h
  · exact fun _ _ _ _ _ h _ => hbackslash h
  · exact fun _ _ h _ => hbackslash h

/-- A written character is read as its piece, and then the string goes on. -/
theorem readPieces?_escapedChar (c : Char) :
    readPieces? (escapedChar c ++ rest) = (readPieces? rest).map fun read => (pieceOf c :: read.1, read.2) := by
  unfold escapedChar
  split
  · exact readPieces?_simple rfl
  · exact readPieces?_simple rfl
  · exact readPieces?_simple rfl
  · exact readPieces?_simple rfl
  · exact readPieces?_simple rfl
  · exact readPieces?_simple rfl
  · exact readPieces?_simple rfl
  · rename_i hquote hbackslash hb ht hn hf hr
    split
    · rename_i hlow
      have hpiece : pieceOf c = .unit c.toNat := by
        refine if_pos ⟨hlow, ?_⟩
        simp only [List.mem_cons, List.not_mem_nil, or_false, not_or]
        exact ⟨hb, ht, hn, hf, hr⟩
      rw [hpiece]
      exact readPieces?_unit hlow
    · rename_i hhigh
      have hpiece : pieceOf c = .char c := if_neg fun h => hhigh h.1
      rw [hpiece]
      exact readPieces?_plain hquote hbackslash hhigh

theorem readPieces?_characters (cs : List Char) :
    readPieces? (cs.flatMap escapedChar ++ '"' :: rest) = some (cs.map pieceOf, rest) := by
  induction cs with
  | nil => simp [readPieces?]
  | cons c cs ih =>
    rw [List.flatMap_cons, List.append_assoc, readPieces?_escapedChar, ih]
    rfl

/-- A code unit that is no half of a surrogate pair is a character by itself. -/
private theorem joinPieces?_unit {code : Nat} {pieces : List Piece} (hhigh : isHighSurrogate code = false)
    (hlow : isLowSurrogate code = false) :
    joinPieces? (.unit code :: pieces) = (joinPieces? pieces).map (Char.ofNat code :: ·) := by
  match pieces with
  | [] => simp [joinPieces?, hhigh, hlow]
  | .char c :: pieces => simp [joinPieces?, hhigh, hlow]
  | .unit low :: pieces => simp [joinPieces?, hhigh, hlow]

theorem joinPieces?_pieces (cs : List Char) : joinPieces? (cs.map pieceOf) = some cs := by
  induction cs with
  | nil => rfl
  | cons c cs ih =>
    rw [List.map_cons]
    by_cases h : c.toNat < 0x20 ∧ c ∉ ['\x08', '\t', '\n', '\x0c', '\r']
    · have hpiece : pieceOf c = .unit c.toNat := if_pos h
      have hlow := h.1
      have hhigh : isHighSurrogate c.toNat = false := by
        simp only [isHighSurrogate, Bool.and_eq_false_iff, decide_eq_false_iff_not]
        omega
      have hsecond : isLowSurrogate c.toNat = false := by
        simp only [isLowSurrogate, Bool.and_eq_false_iff, decide_eq_false_iff_not]
        omega
      rw [hpiece, joinPieces?_unit hhigh hsecond, ih, Char.ofNat_toNat]
      rfl
    · have hpiece : pieceOf c = .char c := if_neg h
      rw [hpiece, joinPieces?, ih]
      rfl

theorem textOf?_pieces (s : String) : textOf? (s.toList.map pieceOf) = some s := by
  rw [textOf?, joinPieces?_pieces, Option.map_some, String.ofList_toList]

end Strings

/-! ### Objects that are sorted -/

private theorem insertMember_of_lt {name : String} {value : Json} {members : List (String × Json)}
    (h : ∀ m ∈ members, m.1 < name) : insertMember name value members = members ++ [(name, value)] := by
  induction members with
  | nil => rfl
  | cons m rest ih =>
    obtain ⟨hm, hrest⟩ := List.forall_mem_cons.1 h
    have hne : name ≠ m.1 := fun he => String.lt_irrefl _ (he ▸ hm)
    rw [insertMember, if_neg (String.lt_asymm hm), if_neg hne, ih hrest]
    rfl

/-- Members that are sorted stay as they are. -/
theorem sortMembers_of_pairwise {members : List (String × Json)} (h : (members.map (·.1)).Pairwise (· < ·)) :
    sortMembers members = members := by
  suffices ∀ before : List (String × Json), ((before ++ members).map (·.1)).Pairwise (· < ·) →
      members.foldl (fun sorted m => insertMember m.1 m.2 sorted) before = before ++ members from this [] h
  clear h
  induction members with
  | nil => exact fun before _ => (List.append_nil before).symm
  | cons m rest ih =>
    intro before h
    have hbefore : ∀ b ∈ before, b.1 < m.1 := by
      rw [List.map_append, List.pairwise_append] at h
      exact fun b hb => h.2.2 b.1 (List.mem_map_of_mem hb) m.1 (by simp)
    have hsplit : before ++ m :: rest = before ++ [m] ++ rest := by simp
    rw [List.foldl_cons, insertMember_of_lt hbefore, ih _ (hsplit ▸ h), hsplit]

/-! ### Values -/

/-- What may come after a value within a text: nothing, or the next item or the end of an array or object. -/
def EndsValue (rest : List Char) : Prop :=
  ∀ c ∈ rest.head?, c = ',' ∨ c = ']' ∨ c = '\x7d'

theorem EndsValue.stopsNumber {rest : List Char} (h : EndsValue rest) : StopsNumber rest := by
  intro c hc
  rcases h c hc with rfl | rfl | rfl <;> decide

/-- The first characters of values: none is a space or would end an array. -/
theorem exists_write_eq_cons (v : Json) :
    ∃ c more, write v = c :: more ∧ c ∉ [' ', '\t', '\n', '\r', ']'] := by
  cases v with
  | null => exact ⟨_, _, rfl, by decide⟩
  | bool b => cases b <;> exact ⟨_, _, rfl, by decide⟩
  | number n =>
    obtain ⟨c, more, hwrite, hc⟩ := (isText_writeNumber n).exists_cons
    refine ⟨c, more, hwrite, ?_⟩
    rintro hmem
    simp only [List.mem_cons, List.not_mem_nil, or_false] at hmem
    rcases hmem with rfl | rfl | rfl | rfl | rfl <;> simp at hc
  | string s => exact ⟨_, _, rfl, by decide⟩
  | array items => exact ⟨_, _, rfl, by decide⟩
  | object members => exact ⟨_, _, rfl, by decide⟩

theorem skipSpace_cons {c : Char} {more : List Char} (h : c ∉ [' ', '\t', '\n', '\r']) :
    skipSpace (c :: more) = c :: more := by
  simp only [List.mem_cons, List.not_mem_nil, or_false, not_or] at h
  simp [skipSpace, h]

/-- A number is read as a value, whatever comes after it. -/
theorem readWithin?_numeral {cs rest : List Char} {n : Numeral} (h : Numeral.IsText cs n) (hrest : StopsNumber rest)
    (fuel : Nat) : Raw.readWithin? (fuel + 1) (cs ++ rest) = some (.number n, rest) := by
  have hread := readNumeral?_text h hrest
  obtain ⟨c, more, rfl, hc⟩ := h.exists_cons
  rw [List.cons_append] at hread ⊢
  have hne : ∀ d ∈ [' ', '\t', '\n', '\r', '"', '[', '\x7b', 'n', 't', 'f'], c ≠ d := by
    rintro d hd rfl
    simp only [List.mem_cons, List.not_mem_nil, or_false] at hd
    rcases hd with rfl | rfl | rfl | rfl | rfl | rfl | rfl | rfl | rfl | rfl <;> simp at hc
  have hspace : skipSpace (c :: (more ++ rest)) = c :: (more ++ rest) :=
    skipSpace_cons fun hmem => hne c (List.mem_append_left _ hmem) rfl
  rw [Raw.readWithin?, hspace]
  -- no other value begins with the sign or a digit
  split
  case h_7 => rw [hread]; rfl
  all_goals
    rename_i heq
    exact absurd (List.cons.inj heq).1 (hne _ (by simp))

private theorem readWithin?_array {c : Char} {more : List Char} (hspace : c ∉ [' ', '\t', '\n', '\r', ']'])
    (fuel : Nat) : Raw.readWithin? (fuel + 1) ('[' :: c :: more) =
      (Raw.readItems? fuel (c :: more)).map fun read => (.array read.1, read.2) := by
  have hskip : skipSpace (c :: more) = c :: more := skipSpace_cons fun h => hspace (List.mem_append_left [']'] h)
  have hopen : skipSpace ('[' :: c :: more) = '[' :: c :: more := skipSpace_cons (by decide)
  have hclose : c ≠ ']' := fun h => hspace (h ▸ by simp)
  rw [Raw.readWithin?, hopen]
  simp only [hskip]
  split
  · rename_i heq
    exact absurd (List.cons.inj heq).1 hclose
  · rfl

private theorem readItems?_next {cs next rest : List Char} {item : Raw} {items : List Raw} {fuel : Nat}
    (hitem : Raw.readWithin? fuel cs = some (item, ',' :: next))
    (hnext : Raw.readItems? fuel next = some (items, rest)) :
    Raw.readItems? (fuel + 1) cs = some (item :: items, rest) := by
  have hskip : skipSpace (',' :: next) = ',' :: next := skipSpace_cons (by decide)
  simp [Raw.readItems?, hitem, hskip, hnext]

private theorem readItems?_last {cs rest : List Char} {item : Raw} {fuel : Nat}
    (hitem : Raw.readWithin? fuel cs = some (item, ']' :: rest)) :
    Raw.readItems? (fuel + 1) cs = some ([item], rest) := by
  have hskip : skipSpace (']' :: rest) = ']' :: rest := skipSpace_cons (by decide)
  simp [Raw.readItems?, hitem, hskip]

private theorem skipSpace_writeString (s : String) (rest : List Char) :
    skipSpace (writeString s ++ rest) = '"' :: (s.toList.flatMap escapedChar ++ '"' :: rest) := by
  have hwrite : writeString s ++ rest = '"' :: (s.toList.flatMap escapedChar ++ '"' :: rest) := by
    simp [writeString]
  rw [hwrite]
  exact skipSpace_cons (by decide)

private theorem readMembers?_next {name : String} {cs next rest : List Char} {value : Raw}
    {members : List (List Piece × Raw)} {fuel : Nat}
    (hvalue : Raw.readWithin? fuel cs = some (value, ',' :: next))
    (hnext : Raw.readMembers? fuel next = some (members, rest)) :
    Raw.readMembers? (fuel + 1) (writeString name ++ ':' :: cs) =
      some ((name.toList.map pieceOf, value) :: members, rest) := by
  have hcolon : skipSpace (':' :: cs) = ':' :: cs := skipSpace_cons (by decide)
  have hcomma : skipSpace (',' :: next) = ',' :: next := skipSpace_cons (by decide)
  simp [Raw.readMembers?, skipSpace_writeString, readPieces?_characters, hcolon, hvalue, hcomma, hnext]

private theorem readMembers?_last {name : String} {cs rest : List Char} {value : Raw} {fuel : Nat}
    (hvalue : Raw.readWithin? fuel cs = some (value, '\x7d' :: rest)) :
    Raw.readMembers? (fuel + 1) (writeString name ++ ':' :: cs) =
      some ([(name.toList.map pieceOf, value)], rest) := by
  have hcolon : skipSpace (':' :: cs) = ':' :: cs := skipSpace_cons (by decide)
  have hbrace : skipSpace ('\x7d' :: rest) = '\x7d' :: rest := skipSpace_cons (by decide)
  simp [Raw.readMembers?, skipSpace_writeString, readPieces?_characters, hcolon, hvalue, hbrace]

private theorem readWithin?_object {more : List Char} (fuel : Nat) :
    Raw.readWithin? (fuel + 1) ('\x7b' :: '"' :: more) =
      (Raw.readMembers? fuel ('"' :: more)).map fun read => (.object read.1, read.2) :=
  rfl

private theorem writeItems_cons_cons (item next : Json) (more : List Json) :
    writeItems (item :: next :: more) = write item ++ ',' :: writeItems (next :: more) :=
  rfl

private theorem writeMembers_cons_cons (name : String) (value : Json) (next : String × Json)
    (more : List (String × Json)) : writeMembers ((name, value) :: next :: more) =
      writeString name ++ ':' :: write value ++ ',' :: writeMembers (next :: more) :=
  rfl

private theorem exists_writeItems_eq_cons (item : Json) (items : List Json) :
    ∃ c more, writeItems (item :: items) = c :: more ∧ c ∉ [' ', '\t', '\n', '\r', ']'] := by
  obtain ⟨c, more, hwrite, hc⟩ := exists_write_eq_cons item
  cases items with
  | nil => exact ⟨c, more, hwrite, hc⟩
  | cons next items => exact ⟨c, _, by rw [writeItems_cons_cons, hwrite, List.cons_append], hc⟩

private theorem exists_writeMembers_eq_cons (m : String × Json) (members : List (String × Json)) :
    ∃ more, writeMembers (m :: members) = '"' :: more := by
  cases members with
  | nil => exact ⟨_, rfl⟩
  | cons next members => exact ⟨_, rfl⟩

private theorem length_write_pos (v : Json) : 0 < (write v).length := by
  obtain ⟨c, more, hwrite, -⟩ := exists_write_eq_cons v
  rw [hwrite]
  exact Nat.succ_pos _

mutual

/-- The value as it is written. -/
def toRaw : Json → Raw
  | .null => .null
  | .bool b => .bool b
  | .number n => .number n.numeral
  | .string s => .string (s.toList.map pieceOf)
  | .array items => .array (toRawItems items)
  | .object members => .object (toRawMembers members)

/-- The items of an array as they are written. -/
def toRawItems : List Json → List Raw
  | [] => []
  | item :: rest => toRaw item :: toRawItems rest

/-- The members of an object as they are written. -/
def toRawMembers : List (String × Json) → List (List Piece × Raw)
  | [] => []
  | (name, value) :: rest => (name.toList.map pieceOf, toRaw value) :: toRawMembers rest

end

mutual

/-- Whatever comes after a value in a text, the value is recognised. -/
theorem readWithin?_write (v : Json) {fuel : Nat} (hfuel : 2 * (write v).length ≤ fuel) {rest : List Char}
    (hrest : EndsValue rest) : Raw.readWithin? fuel (write v ++ rest) = some (v.toRaw, rest) := by
  match v, fuel with
  | v, 0 =>
    have hpos := length_write_pos v
    omega
  | .null, fuel + 1 | .bool true, fuel + 1 | .bool false, fuel + 1 => rfl
  | .number n, fuel + 1 => exact readWithin?_numeral (isText_writeNumber n) hrest.stopsNumber fuel
  | .string s, fuel + 1 =>
    simp [Raw.readWithin?, write, toRaw, skipSpace_writeString, readPieces?_characters]
  | .array [], fuel + 1 => rfl
  | .array (item :: items), fuel + 1 =>
    rw [write, List.length_append, List.length_cons, List.length_singleton] at hfuel
    have hitems : 2 * (writeItems (item :: items)).length + 1 ≤ fuel := by omega
    have hread := readItems?_write (item :: items) (List.cons_ne_nil _ _) hitems rest
    obtain ⟨c, more, hfirst, hc⟩ := exists_writeItems_eq_cons item items
    rw [hfirst, List.cons_append] at hread
    rw [write, List.append_assoc, List.singleton_append, List.cons_append, hfirst, List.cons_append,
      readWithin?_array hc, hread]
    rfl
  | .object [], fuel + 1 => rfl
  | .object (m :: members), fuel + 1 =>
    rw [write, List.length_append, List.length_cons, List.length_singleton] at hfuel
    have hmembers : 2 * (writeMembers (m :: members)).length + 1 ≤ fuel := by omega
    have hread := readMembers?_write (m :: members) (List.cons_ne_nil _ _) hmembers rest
    obtain ⟨more, hfirst⟩ := exists_writeMembers_eq_cons m members
    rw [hfirst, List.cons_append] at hread
    rw [write, List.append_assoc, List.singleton_append, List.cons_append, hfirst, List.cons_append,
      readWithin?_object, hread]
    rfl

/-- So are the items of an array, up to its end. -/
theorem readItems?_write (items : List Json) (hne : items ≠ []) {fuel : Nat}
    (hfuel : 2 * (writeItems items).length + 1 ≤ fuel) (rest : List Char) :
    Raw.readItems? fuel (writeItems items ++ ']' :: rest) = some (toRawItems items, rest) := by
  match items, fuel with
  | [item], fuel + 1 =>
    rw [writeItems] at hfuel ⊢
    have hends : EndsValue (']' :: rest) := by simp [EndsValue]
    exact readItems?_last (readWithin?_write item (by omega) hends)
  | item :: next :: more, fuel + 1 =>
    have hwrite : writeItems (item :: next :: more) ++ ']' :: rest =
        write item ++ ',' :: (writeItems (next :: more) ++ ']' :: rest) := by
      simp [writeItems]
    rw [writeItems_cons_cons, List.length_append, List.length_cons] at hfuel
    have hends : EndsValue (',' :: (writeItems (next :: more) ++ ']' :: rest)) := by simp [EndsValue]
    have hitem := readWithin?_write item (by omega : 2 * (write item).length ≤ fuel) hends
    rw [hwrite]
    exact readItems?_next hitem (readItems?_write (next :: more) (List.cons_ne_nil _ _) (by omega) rest)

/-- So are the members of an object, up to its end. -/
theorem readMembers?_write (members : List (String × Json)) (hne : members ≠ []) {fuel : Nat}
    (hfuel : 2 * (writeMembers members).length + 1 ≤ fuel) (rest : List Char) :
    Raw.readMembers? fuel (writeMembers members ++ '\x7d' :: rest) = some (toRawMembers members, rest) := by
  match members, fuel with
  | [(name, value)], fuel + 1 =>
    have hwrite : writeMembers [(name, value)] ++ '\x7d' :: rest =
        writeString name ++ ':' :: (write value ++ '\x7d' :: rest) := by
      simp [writeMembers]
    rw [writeMembers, List.length_append, List.length_cons] at hfuel
    have hends : EndsValue ('\x7d' :: rest) := by simp [EndsValue]
    rw [hwrite]
    exact readMembers?_last (readWithin?_write value (by omega) hends)
  | (name, value) :: next :: more, fuel + 1 =>
    have hwrite : writeMembers ((name, value) :: next :: more) ++ '\x7d' :: rest =
        writeString name ++ ':' :: (write value ++ ',' :: (writeMembers (next :: more) ++ '\x7d' :: rest)) := by
      simp [writeMembers]
    rw [writeMembers_cons_cons, List.length_append, List.length_append, List.length_cons, List.length_cons] at hfuel
    have hends : EndsValue (',' :: (writeMembers (next :: more) ++ '\x7d' :: rest)) := by simp [EndsValue]
    have hvalue := readWithin?_write value (by omega : 2 * (write value).length ≤ fuel) hends
    rw [hwrite]
    exact readMembers?_next hvalue (readMembers?_write (next :: more) (List.cons_ne_nil _ _) (by omega) rest)

end

theorem read?_write (v : Json) : Raw.read? (write v) = some (v.toRaw, []) := by
  have hfuel : 2 * (write v).length ≤ 2 * (write v).length + 1 := Nat.le_succ _
  have hends : EndsValue [] := by simp [EndsValue]
  have hread := readWithin?_write v hfuel hends
  rwa [List.append_nil] at hread

/-! ### Different values -/

private theorem map_pieceOf_injective {s t : String} (h : s.toList.map pieceOf = t.toList.map pieceOf) : s = t :=
  Option.some.inj ((textOf?_pieces s).symm.trans ((congrArg textOf? h).trans (textOf?_pieces t)))

mutual

theorem toRaw_injective (v : Json) {w : Json} (h : v.toRaw = w.toRaw) : v = w := by
  match v with
  | .null => cases w with
    | null => rfl
    | _ => simp [toRaw] at h
  | .bool b => cases w with
    | bool b' => exact congrArg Json.bool (Raw.bool.inj h)
    | _ => simp [toRaw] at h
  | .number n => cases w with
    | number n' => exact congrArg Json.number (Number.numeral_injective (Raw.number.inj h))
    | _ => simp [toRaw] at h
  | .string s => cases w with
    | string s' => exact congrArg Json.string (map_pieceOf_injective (Raw.string.inj h))
    | _ => simp [toRaw] at h
  | .array items => cases w with
    | array items' => exact congrArg Json.array (toRawItems_injective items (Raw.array.inj h))
    | _ => simp [toRaw] at h
  | .object members => cases w with
    | object members' => exact congrArg Json.object (toRawMembers_injective members (Raw.object.inj h))
    | _ => simp [toRaw] at h

theorem toRawItems_injective (items : List Json) {items' : List Json} (h : toRawItems items = toRawItems items') :
    items = items' := by
  match items, items' with
  | [], [] => rfl
  | item :: items, item' :: items' =>
    obtain ⟨hitem, hitems⟩ := List.cons.inj h
    rw [toRaw_injective item hitem, toRawItems_injective items hitems]

theorem toRawMembers_injective (members : List (String × Json)) {members' : List (String × Json)}
    (h : toRawMembers members = toRawMembers members') : members = members' := by
  match members, members' with
  | [], [] => rfl
  | (name, value) :: members, (name', value') :: members' =>
    obtain ⟨hmember, hmembers⟩ := List.cons.inj h
    obtain ⟨hname, hvalue⟩ := Prod.mk.inj hmember
    rw [map_pieceOf_injective hname, toRaw_injective value hvalue, toRawMembers_injective members hmembers]

end

/-- Different values have different texts, whether or not these are read as the values. -/
theorem render_injective {v w : Json} (h : render v = render w) : v = w := by
  have hwrite : write v = write w := String.ofList_injective h
  have hread := read?_write v
  rw [hwrite, read?_write w] at hread
  exact (toRaw_injective w (Prod.mk.inj (Option.some.inj hread)).1).symm

/-! ### Reading the value -/

mutual

/-- All doubles in the value read back.  Integers do in any case. -/
def ReadsBack : Json → Prop
  | .number (.double x) => (Number.double x).ReadsBack
  | .array items => ReadBack items
  | .object members => MembersReadBack members
  | .null | .bool _ | .number (.integer _ _) | .string _ => True

/-- All doubles in the items read back. -/
def ReadBack : List Json → Prop
  | [] => True
  | item :: rest => ReadsBack item ∧ ReadBack rest

/-- All doubles in the members read back. -/
def MembersReadBack : List (String × Json) → Prop
  | [] => True
  | (_, value) :: rest => ReadsBack value ∧ MembersReadBack rest

end

mutual

/-- What is written for a value means that value. -/
theorem ofRaw?_toRaw (v : Json) (hsorted : v.IsSorted) (hnumbers : v.ReadsBack) {limit : Nat}
    (hdepth : v.depth ≤ limit) : ofRaw? limit v.toRaw = some v := by
  match v, limit with
  | .null, _ | .bool _, _ => rfl
  | .number (.integer n h), _ =>
    rw [toRaw, ofRaw?, readsBack_iff.1 (readsBack_integer n h)]
    rfl
  | .number (.double x), _ =>
    rw [toRaw, ofRaw?, readsBack_iff.1 hnumbers]
    rfl
  | .string s, _ =>
    rw [toRaw, ofRaw?, textOf?_pieces]
    rfl
  | .array items, limit + 1 =>
    rw [toRaw, ofRaw?, itemsOfRaw?_toRawItems items hsorted hnumbers (Nat.le_of_succ_le_succ hdepth)]
    rfl
  | .object members, limit + 1 =>
    rw [toRaw, ofRaw?, membersOfRaw?_toRawMembers members hsorted.2 hnumbers (Nat.le_of_succ_le_succ hdepth),
      Option.map_some, sortMembers_of_pairwise hsorted.1]

theorem itemsOfRaw?_toRawItems (items : List Json) (hsorted : IsSortedItems items) (hnumbers : ReadBack items)
    {limit : Nat} (hdepth : depthItems items ≤ limit) : itemsOfRaw? limit (toRawItems items) = some items := by
  match items with
  | [] => rfl
  | item :: items =>
    obtain ⟨hfirst, hrest⟩ := Nat.max_le.1 hdepth
    rw [toRawItems, itemsOfRaw?, ofRaw?_toRaw item hsorted.1 hnumbers.1 hfirst,
      itemsOfRaw?_toRawItems items hsorted.2 hnumbers.2 hrest]
    rfl

theorem membersOfRaw?_toRawMembers (members : List (String × Json)) (hsorted : IsSortedMembers members)
    (hnumbers : MembersReadBack members) {limit : Nat} (hdepth : depthMembers members ≤ limit) :
    membersOfRaw? limit (toRawMembers members) = some members := by
  match members with
  | [] => rfl
  | (name, value) :: members =>
    obtain ⟨hfirst, hrest⟩ := Nat.max_le.1 hdepth
    rw [toRawMembers, membersOfRaw?, textOf?_pieces, ofRaw?_toRaw value hsorted.1 hnumbers.1 hfirst,
      membersOfRaw?_toRawMembers members hsorted.2 hnumbers.2 hrest]
    rfl

end

/-- The text of a value is read as that value, if the doubles in it are. -/
theorem parse?_render {v : Json} (hsorted : v.IsSorted) (hdepth : v.depth ≤ nestingLimit) (hnumbers : v.ReadsBack) :
    parse? (render v) = some v := by
  rw [parse?, parseWithin?, render, String.toList_ofList, read?_write]
  exact ofRaw?_toRaw v hsorted hnumbers hdepth

/-! ### Values that were read -/

theorem isSortedItems_iff {items : List Json} : IsSortedItems items ↔ ∀ item ∈ items, item.IsSorted := by
  induction items with
  | nil => simp [IsSortedItems]
  | cons item rest ih => simp [IsSortedItems, ih]

theorem isSortedMembers_iff {members : List (String × Json)} :
    IsSortedMembers members ↔ ∀ m ∈ members, m.2.IsSorted := by
  induction members with
  | nil => simp [IsSortedMembers]
  | cons m rest ih => simp [IsSortedMembers, ih]

theorem depthItems_le_iff {items : List Json} {limit : Nat} :
    depthItems items ≤ limit ↔ ∀ item ∈ items, item.depth ≤ limit := by
  induction items with
  | nil => simp [depthItems]
  | cons item rest ih => simp [depthItems, ih]

theorem depthMembers_le_iff {members : List (String × Json)} {limit : Nat} :
    depthMembers members ≤ limit ↔ ∀ m ∈ members, m.2.depth ≤ limit := by
  induction members with
  | nil => simp [depthMembers]
  | cons m rest ih => simp [depthMembers, ih]

theorem mem_of_mem_sortMembers {members : List (String × Json)} {m : String × Json} (h : m ∈ sortMembers members) :
    m ∈ members := by
  suffices ∀ sorted, m ∈ members.foldl (fun sorted m => insertMember m.1 m.2 sorted) sorted → m ∈ sorted ∨ m ∈ members
    from (this [] h).resolve_left List.not_mem_nil
  clear h
  induction members with
  | nil => exact fun _ => .inl
  | cons first rest ih =>
    intro sorted h
    rcases ih _ h with h | h
    · rcases mem_insertMember h with rfl | h
      · exact .inr List.mem_cons_self
      · exact .inl h
    · exact .inr (List.mem_cons_of_mem _ h)

mutual

/-- A value that was read has its objects sorted and is within the limit. -/
theorem isSorted_of_ofRaw? (raw : Raw) {limit : Nat} {v : Json} (h : ofRaw? limit raw = some v) :
    v.IsSorted ∧ v.depth ≤ limit := by
  match raw, limit with
  | .null, _ | .bool _, _ =>
    obtain rfl := Option.some.inj h
    exact ⟨trivial, Nat.zero_le _⟩
  | .number n, _ =>
    obtain ⟨number, -, rfl⟩ := Option.map_eq_some_iff.1 h
    exact ⟨trivial, Nat.zero_le _⟩
  | .string pieces, _ =>
    obtain ⟨s, -, rfl⟩ := Option.map_eq_some_iff.1 h
    exact ⟨trivial, Nat.zero_le _⟩
  | .array raws, limit + 1 =>
    obtain ⟨items, hitems, rfl⟩ := Option.map_eq_some_iff.1 h
    have hread := isSorted_of_itemsOfRaw? raws hitems
    exact ⟨isSortedItems_iff.2 fun item hitem => (hread item hitem).1,
      Nat.succ_le_succ (depthItems_le_iff.2 fun item hitem => (hread item hitem).2)⟩
  | .object raws, limit + 1 =>
    obtain ⟨members, hmembers, rfl⟩ := Option.map_eq_some_iff.1 h
    have hread := isSorted_of_membersOfRaw? raws hmembers
    exact ⟨⟨pairwise_sortMembers members, isSortedMembers_iff.2 fun m hm => (hread m (mem_of_mem_sortMembers hm)).1⟩,
      Nat.succ_le_succ (depthMembers_le_iff.2 fun m hm => (hread m (mem_of_mem_sortMembers hm)).2)⟩
  | .array _, 0 | .object _, 0 => simp [ofRaw?] at h

theorem isSorted_of_itemsOfRaw? (raws : List Raw) {limit : Nat} {items : List Json}
    (h : itemsOfRaw? limit raws = some items) : ∀ item ∈ items, item.IsSorted ∧ item.depth ≤ limit := by
  match raws with
  | [] =>
    obtain rfl := Option.some.inj h
    simp
  | raw :: raws =>
    obtain ⟨item, hitem, h⟩ := Option.bind_eq_some_iff.1 h
    obtain ⟨rest, hrest, h⟩ := Option.bind_eq_some_iff.1 h
    obtain rfl := Option.some.inj h
    exact List.forall_mem_cons.2 ⟨isSorted_of_ofRaw? raw hitem, isSorted_of_itemsOfRaw? raws hrest⟩

theorem isSorted_of_membersOfRaw? (raws : List (List Piece × Raw)) {limit : Nat} {members : List (String × Json)}
    (h : membersOfRaw? limit raws = some members) : ∀ m ∈ members, m.2.IsSorted ∧ m.2.depth ≤ limit := by
  match raws with
  | [] =>
    obtain rfl := Option.some.inj h
    simp
  | (name, raw) :: raws =>
    obtain ⟨text, -, h⟩ := Option.bind_eq_some_iff.1 h
    obtain ⟨value, hvalue, h⟩ := Option.bind_eq_some_iff.1 h
    obtain ⟨rest, hrest, h⟩ := Option.bind_eq_some_iff.1 h
    obtain rfl := Option.some.inj h
    exact List.forall_mem_cons.2 ⟨isSorted_of_ofRaw? raw hvalue, isSorted_of_membersOfRaw? raws hrest⟩

end

theorem isSorted_of_parse? {text : String} {v : Json} (h : parse? text = some v) :
    v.IsSorted ∧ v.depth ≤ nestingLimit := by
  unfold parse? parseWithin? at h
  obtain ⟨⟨raw, rest⟩, -, h⟩ := Option.bind_eq_some_iff.1 h
  dsimp only at h
  split at h
  · exact isSorted_of_ofRaw? raw h
  · simp at h

end PageBindings.Json
