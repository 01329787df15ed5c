/-!
# Blanks

Two classes of blank characters are in use: `isBlank` is the Unicode property `White_Space`, `isAsciiBlank` the five
characters that separate attributes in markup.  `trim` drops the blanks at both ends of a text and nothing else
(`trimmed_eq`), `words` splits a text at its blanks.
-/

namespace PageBindings.Text

/-- The Unicode property `White_Space`. -/
def isBlank (c : Char) : Bool :=
  let n := c.toNat
  (9 ≤ n && n ≤ 13) || n == 0x20 || n == 0x85 || n == 0xA0 || n == 0x1680 || (0x2000 ≤ n && n ≤ 0x200A) ||
    n == 0x2028 || n == 0x2029 || n == 0x202F || n == 0x205F || n == 0x3000

/-- Space, tab, line feed, form feed and carriage return. -/
def isAsciiBlank (c : Char) : Bool :=
  c == ' ' || c == '\t' || c == '\n' || c == '\x0c' || c == '\r'

/-- The characters without the blanks at the end. -/
def trimEnd (cs : List Char) : List Char :=
  (cs.reverse.dropWhile isBlank).reverse

/-- The characters without the blanks at both ends. -/
def trimmed (cs : List Char) : List Char :=
  trimEnd (cs.dropWhile isBlank)

/-- The text without the blanks at both ends. -/
def trim (s : String) : String :=
  String.ofList (trimmed s.toList)

/-- The word that `cs` begins with, which is empty if `cs` begins with a blank, and the words after it. -/
def wordsFrom (cs : List Char) : List Char × List (List Char) :=
  cs.foldr
    (fun c found =>
      if isBlank c then ([], if found.1.isEmpty then found.2 else found.1 :: found.2) else (c :: found.1, found.2))
    ([], [])

/-- The maximal runs of characters that are not blank. -/
def words (s : String) : List String :=
  let found := wordsFrom s.toList
  ((if found.1.isEmpty then found.2 else found.1 :: found.2).map String.ofList)

/-- A text is its trimmed form with blanks on both sides. -/
theorem trimmed_eq (cs : List Char) :
    ∃ before after : List Char, cs = before ++ trimmed cs ++ after ∧
      (∀ c ∈ before, isBlank c = true) ∧ ∀ c ∈ after, isBlank c = true := by
  refine ⟨cs.takeWhile isBlank, ((cs.dropWhile isBlank).reverse.takeWhile isBlank).reverse, ?_, ?_, ?_⟩
  · unfold trimmed trimEnd
    rw [List.append_assoc, ← List.reverse_append, List.takeWhile_append_dropWhile, List.reverse_reverse,
      List.takeWhile_append_dropWhile]
  · intro c hc
    exact List.all_eq_true.1 List.all_takeWhile c hc
  · intro c hc
    exact List.all_eq_true.1 List.all_takeWhile c (List.mem_reverse.1 hc)

end PageBindings.Text
