import PageBindings.Json.Raw
import PageBindings.Proofs.Selector.Attribute

/-!
# Attribute values as browsers read them

A browser reads the value in a selector as a CSS string (`Css.readQuoted`).  There every newline ends a string, and
three characters count as one: line feed, carriage return and form feed.  `Selector.forAttribute` escapes the first of
them only.  So a value is read as it is exactly if neither of the others is in it; otherwise the string breaks off at
the first of them (`Selector.css_reads_value`).
-/

namespace PageBindings

namespace Css

/-- How a string that has been begun goes on. -/
inductive StringToken where
  /-- The closing quote is there, and then other text. -/
  | closed (contents rest : List Char)
  /-- A newline is in the way. -/
  | broken (contents : List Char)
  /-- The text ends before the string does. -/
  | unfinished (contents : List Char)
deriving DecidableEq, Repr

/-- The token with one more character at the front of its contents. -/
def StringToken.cons (c : Char) : StringToken → StringToken
  | .closed contents rest => .closed (c :: contents) rest
  | .broken contents => .broken (c :: contents)
  | .unfinished contents => .unfinished (c :: contents)

/-- A text before it is looked at: all newlines are line feeds, and there is no null character. -/
def preprocessed : List Char → List Char
  | [] => []
  | '\r' :: '\n' :: rest => '\n' :: preprocessed rest
  | c :: rest =>
    (if c = '\r' ∨ c = '\x0c' then '\n' else if c = '\x00' then '\ufffd' else c) :: preprocessed rest

/-- Whether a character is a hexadecimal digit. -/
def isHexDigit (c : Char) : Bool :=
  (Json.hexValue? c).isSome

/-- The character with a number in hexadecimal digits; numbers of no character stand for U+FFFD. -/
def numbered (digits : List Char) : Char :=
  let n := digits.foldl (fun n c => n * 16 + (Json.hexValue? c).getD 0) 0
  if n = 0 ∨ ¬ n.isValidChar then '\ufffd' else Char.ofNat n

/-- The text without the one blank that may follow a number. -/
def afterNumber : List Char → List Char
  | c :: rest => if c = ' ' ∨ c = '\t' ∨ c = '\n' then rest else c :: rest
  | [] => []

/--
What an escape stands for, of which `c` is the first character after the backslash, and what follows it: a number of
up to six digits stands for a character, and every other character for itself.
-/
def readEscape (c : Char) (rest : List Char) : Char × List Char :=
  if isHexDigit c then
    let digits := (rest.take 5).takeWhile isHexDigit
    (numbered (c :: digits), afterNumber (rest.drop digits.length))
  else (c, rest)

theorem length_readEscape_le (c : Char) (rest : List Char) : (readEscape c rest).2.length ≤ rest.length := by
  have hafter : ∀ cs : List Char, (afterNumber cs).length ≤ cs.length := by
    intro cs
    unfold afterNumber
    split
    · split
      · exact Nat.le_succ _
      · exact Nat.le_refl _
    · exact Nat.le_refl 0
  unfold readEscape
  split
  · refine Nat.le_trans (hafter _) ?_
    rw [List.length_drop]
    omega
  · exact Nat.le_refl rest.length

/-- Reads a string after its opening quote.  An escaped newline is no part of it. -/
def readString (quote : Char) : List Char → StringToken
  | [] => .unfinished []
  | c :: rest =>
    if c = quote then .closed [] rest
    else if c = '\n' then .broken []
    else if c = '\\' then
      match rest with
      | [] => .unfinished []
      | next :: rest =>
        if next = '\n' then readString quote rest
        else (readString quote (readEscape next rest).2).cons (readEscape next rest).1
    else (readString quote rest).cons c
termination_by cs => cs.length
decreasing_by
  · simp only [List.length_cons]
    omega
  · have hle := length_readEscape_le next rest
    simp only [List.length_cons]
    omega
  · simp only [List.length_cons]
    omega

/-- The string token at the front of a text, if there is one. -/
def readQuoted (text : List Char) : Option StringToken :=
  match preprocessed text with
  | [] => none
  | quote :: rest => if quote = '"' ∨ quote = '\'' then some (readString quote rest) else none

/-! ### Strings character by character -/

section Characters

variable {quote c : Char}

theorem readString_quote (rest : List Char) : readString quote (quote :: rest) = .closed [] rest := by
  rw [readString.eq_def]
  exact if_pos rfl

theorem readString_newline (h : quote ≠ '\n') (rest : List Char) : readString quote ('\n' :: rest) = .broken [] := by
  rw [readString.eq_def]
  dsimp only
  rw [if_neg (Ne.symm h), if_pos rfl]

theorem readString_escape (h : quote ≠ '\\') (hc : c ≠ '\n') (rest : List Char) :
    readString quote ('\\' :: c :: rest) = (readString quote (readEscape c rest).2).cons (readEscape c rest).1 := by
  rw [readString.eq_def]
  dsimp only
  rw [if_neg (Ne.symm h), if_neg (by decide), if_pos rfl, if_neg hc]

theorem readString_plain (hquote : c ≠ quote) (hnewline : c ≠ '\n') (hbackslash : c ≠ '\\') (rest : List Char) :
    readString quote (c :: rest) = (readString quote rest).cons c := by
  rw [readString.eq_def]
  dsimp only
  rw [if_neg hquote, if_neg hnewline, if_neg hbackslash]

end Characters

/-! ### Text without newlines other than line feeds -/

/-- The characters that the preprocessing changes into a newline. -/
def isReturn (c : Char) : Bool :=
  c == '\r' || c == '\x0c'

theorem preprocessed_cons {c : Char} (hreturn : isReturn c = false) (hnull : c ≠ '\x00') (rest : List Char) :
    preprocessed (c :: rest) = c :: preprocessed rest := by
  have hc : c ≠ '\r' ∧ c ≠ '\x0c' := by simpa [isReturn] using hreturn
  rw [preprocessed, if_neg (by simp [hc]), if_neg hnull]
  exact fun _ he _ => hc.1 he

theorem preprocessed_append {cs : List Char} (h : ∀ c ∈ cs, isReturn c = false ∧ c ≠ '\x00') (rest : List Char) :
    preprocessed (cs ++ rest) = cs ++ preprocessed rest := by
  induction cs with
  | nil => rfl
  | cons c cs ih =>
    obtain ⟨⟨hreturn, hnull⟩, hcs⟩ := List.forall_mem_cons.1 h
    rw [List.cons_append, preprocessed_cons hreturn hnull, ih hcs]
    rfl

theorem exists_preprocessed_return {c : Char} (h : isReturn c = true) (rest : List Char) :
    ∃ more, preprocessed (c :: rest) = '\n' :: more := by
  have hc : c = '\r' ∨ c = '\x0c' := by simpa [isReturn] using h
  by_cases hpair : c = '\r' ∧ ∃ more, rest = '\n' :: more
  · obtain ⟨rfl, more, rfl⟩ := hpair
    exact ⟨preprocessed more, by rw [preprocessed]⟩
  · refine ⟨preprocessed rest, ?_⟩
    rw [preprocessed, if_pos hc]
    exact fun more he hrest => hpair ⟨he, more, hrest⟩

end Css

namespace Selector

open Css

/-- How a character is written has no other newlines and null characters than it is itself. -/
private theorem mem_selectorChar {c d : Char} (hreturn : isReturn c = false) (hnull : c ≠ '\x00')
    (h : d ∈ selectorChar c) : isReturn d = false ∧ d ≠ '\x00' := by
  unfold selectorChar at h
  split at h
  · simp only [List.mem_cons, List.not_mem_nil, or_false] at h
    rcases h with rfl | rfl
    · decide
    · exact ⟨hreturn, hnull⟩
  · split at h
    · simp only [List.mem_cons, List.not_mem_nil, or_false] at h
      rcases h with rfl | rfl | rfl <;> decide
    · obtain rfl := List.mem_singleton.1 h
      exact ⟨hreturn, hnull⟩

/-- A written character is read as itself, and then the string goes on. -/
theorem readString_selectorChar (c : Char) (rest : List Char) :
    readString '"' (selectorChar c ++ rest) = (readString '"' rest).cons c := by
  unfold selectorChar
  by_cases hescaped : c = '"' ∨ c = '\\'
  · rw [if_pos hescaped]
    -- neither a quote nor a backslash is the digit of a number
    have hescape : readEscape c rest = (c, rest) := by
      rcases hescaped with rfl | rfl
      · rfl
      · rfl
    have hfeed : c ≠ '\n' := by
      rcases hescaped with rfl | rfl
      · decide
      · decide
    show readString '"' ('\\' :: c :: rest) = _
    rw [readString_escape (by decide) hfeed, hescape]
  · rw [if_neg hescaped]
    obtain ⟨hquote, hbackslash⟩ := not_or.1 hescaped
    by_cases hfeed : c = '\n'
    · rw [if_pos hfeed]
      subst hfeed
      -- the space ends the number, so that digits of the value are not taken for more of it
      have hescape : readEscape 'a' (' ' :: rest) = ('\n', rest) := rfl
      show readString '"' ('\\' :: 'a' :: ' ' :: rest) = _
      rw [readString_escape (by decide) (by decide), hescape]
    · rw [if_neg hfeed]
      exact readString_plain hquote hfeed hbackslash rest

/-- How the token of a written value comes out: the characters are its contents up to the first return. -/
private theorem readString_written {value : List Char} (hnull : '\x00' ∉ value) (rest : List Char) :
    readString '"' (preprocessed (value.flatMap selectorChar ++ '"' :: rest)) =
      if value.any isReturn then .broken (value.takeWhile fun c => !isReturn c)
      else .closed value (preprocessed rest) := by
  induction value with
  | nil =>
    rw [List.flatMap_nil, List.nil_append, preprocessed_cons (by decide) (by decide), readString_quote]
    rfl
  | cons c value ih =>
    obtain ⟨hc, hvalue⟩ := not_or.1 (mt List.mem_cons.2 hnull)
    rw [List.flatMap_cons, List.append_assoc]
    cases hreturn : isReturn c with
    | true =>
      have hplain : selectorChar c = [c] := by
        have hcases : c = '\r' ∨ c = '\x0c' := by simpa [isReturn] using hreturn
        rcases hcases with rfl | rfl
        · rfl
        · rfl
      obtain ⟨more, hmore⟩ := exists_preprocessed_return hreturn (value.flatMap selectorChar ++ '"' :: rest)
      rw [hplain, List.singleton_append, hmore, readString_newline (by decide)]
      simp [hreturn]
    | false =>
      rw [preprocessed_append fun d hd => mem_selectorChar hreturn (Ne.symm hc) hd, readString_selectorChar,
        ih hvalue]
      by_cases hany : value.any isReturn
      · simp [hany, hreturn, StringToken.cons]
      · simp [hany, hreturn, StringToken.cons]

/--
Of the selector for a value a browser reads the text after the equals sign, up to the bracket that ends the selector,
as one string with the value as its contents, unless there is a carriage return or a form feed in the value.  The
first one breaks the string off.
-/
theorem css_reads_value (name : String) {value : String} (hnull : '\x00' ∉ value.toList) :
    ∃ text, (forAttribute name value).toList = '[' :: name.toList ++ '=' :: text ++ [']'] ∧
      ∀ rest, readQuoted (text ++ rest) = some (
        if value.toList.any isReturn then .broken (value.toList.takeWhile fun c => !isReturn c)
        else .closed value.toList (preprocessed rest)) := by
  refine ⟨'"' :: value.toList.flatMap selectorChar ++ ['"'], by simp [forAttribute], fun rest => ?_⟩
  have hquote : preprocessed ('"' :: (value.toList.flatMap selectorChar ++ '"' :: rest)) =
      '"' :: preprocessed (value.toList.flatMap selectorChar ++ '"' :: rest) :=
    preprocessed_cons (by decide) (by decide) _
  rw [List.append_assoc, List.cons_append, List.singleton_append]
  unfold readQuoted
  rw [hquote]
  dsimp only
  rw [if_pos (.inl rfl), readString_written hnull]

/-- Quotes, backslashes and line feeds do no harm, whatever follows them. -/
theorem css_reads_value_spiteful :
    '\x00' ∉ "\"]\nf \\a".toList ∧
      (forAttribute "a" "\"]\nf \\a").toList = "[a=\"\\\"]\\a f \\\\a\"]".toList ∧
      readQuoted ("\"\\\"]\\a f \\\\a\"".toList ++ [']']) = some (.closed "\"]\nf \\a".toList [']']) := by
  have hnull : '\x00' ∉ "\"]\nf \\a".toList := by decide
  have hwritten : (forAttribute "a" "\"]\nf \\a").toList = "[a=\"\\\"]\\a f \\\\a\"]".toList := by decide
  obtain ⟨text, htext, hread⟩ := css_reads_value "a" hnull
  have hbetween : '[' :: "a".toList ++ '=' :: text ++ [']'] =
      '[' :: "a".toList ++ '=' :: "\"\\\"]\\a f \\\\a\"".toList ++ [']'] :=
    htext.symm.trans hwritten
  obtain rfl : text = "\"\\\"]\\a f \\\\a\"".toList := by
    exact (List.cons.inj (List.append_cancel_left (List.append_cancel_right hbetween))).2
  refine ⟨hnull, hwritten, ?_⟩
  rw [hread]
  rfl

/-- A carriage return in a value ends the string, although it is no null character. -/
theorem carriage_return_breaks :
    '\x00' ∉ "\r".toList ∧ (forAttribute "a" "\r").toList = '[' :: "a".toList ++ '=' :: ['"', '\r', '"'] ++ [']'] ∧
      readQuoted ['"', '\r', '"'] = some (.broken []) := by
  refine ⟨by decide, by decide, ?_⟩
  exact congrArg some (readString_newline (by decide) ['"'])

end Selector

end PageBindings
