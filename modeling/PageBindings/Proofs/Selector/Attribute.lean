import PageBindings.Proofs.Binding.Discovery
import PageBindings.Selector.Attribute

/-!
# Reading the selector of an attribute value

A value between the quotes of a selector is read as it was before it was written (`readValue?_written`), whatever its
characters are, since every character is written in a way that does not depend on the next one.  So the selector for
a value of an attribute is a single condition, on exactly that value (`parse?_forAttribute`).
-/

namespace PageBindings.Selector

variable {rest : List Char}

theorem readValue?_escaped {c : Char} (h : c ≠ 'a') :
    readValue? ('\\' :: c :: rest) = (readValue? rest).map fun read => (c :: read.1, read.2) := by
  rw [readValue?]
  · exact fun _ he _ => h he
  · exact fun he => h he

theorem readValue?_plain {c : Char} (hquote : c ≠ '"') (hbackslash : c ≠ '\\') :
    readValue? (c :: rest) = (readValue? rest).map fun read => (c :: read.1, read.2) := by
  rw [readValue?, if_neg hbackslash]
  · exact fun he => hquote he
  · exact fun _ he _ => hbackslash he
  · exact fun _ he _ => hbackslash he
  · exact fun _ _ he _ => hbackslash he

/-- A written character is read as itself, and then the value goes on. -/
theorem readValue?_selectorChar (c : Char) :
    readValue? (selectorChar c ++ rest) = (readValue? rest).map fun read => (c :: read.1, read.2) := by
  unfold selectorChar
  split
  · rename_i h
    refine readValue?_escaped ?_
    rcases h with rfl | rfl
    · decide
    · decide
  · rename_i h
    obtain ⟨hquote, hbackslash⟩ := not_or.1 h
    split
    · rename_i hfeed
      subst hfeed
      -- the space that ends the code is the one that the reader takes with it, whatever comes next
      show readValue? ('\\' :: 'a' :: ' ' :: rest) = _
      rw [readValue?]
    · exact readValue?_plain hquote hbackslash

theorem readValue?_written (value : List Char) :
    readValue? (value.flatMap selectorChar ++ '"' :: rest) = some (value, rest) := by
  induction value with
  | nil => rw [List.flatMap_nil, List.nil_append, readValue?]
  | cons c value ih =>
    rw [List.flatMap_cons, List.append_assoc, readValue?_selectorChar, ih]
    rfl

private theorem readCondition?_forAttribute {name : String} (hname : ∀ c ∈ name.toList, isNameChar c = true)
    (value : String) : readCondition? (forAttribute name value).toList = some (.equals name value, []) := by
  have hcs : (forAttribute name value).toList =
      '[' :: (name.toList ++ '=' :: '"' :: (value.toList.flatMap selectorChar ++ ['"', ']'])) := by
    simp [forAttribute]
  have hvalue : readValue? (value.toList.flatMap selectorChar ++ ['"', ']']) = some (value.toList, [']']) :=
    readValue?_written value.toList
  rw [hcs]
  show readAttribute? (name.toList ++ _) = _
  unfold readAttribute?
  rw [takeName_append_cons hname (by decide +kernel), String.ofList_toList]
  simp [hvalue, String.ofList_toList]

/-- The selector for a value of an attribute selects the elements whose attribute has exactly this value. -/
theorem parse?_forAttribute {name : String} (hname : ∀ c ∈ name.toList, isNameChar c = true) (value : String) :
    parse? (forAttribute name value) = some [.equals name value] := by
  have hcs : (forAttribute name value).toList =
      '[' :: (name.toList ++ '=' :: '"' :: value.toList.flatMap selectorChar ++ ['"']) ++ [']'] := by
    simp [forAttribute]
  have htrimmed : Text.trimmed (forAttribute name value).toList = (forAttribute name value).toList := by
    rw [hcs]
    exact Text.trimmed_of_ends (by decide) (by decide)
  have hread := readCondition?_forAttribute hname value
  unfold parse?
  rw [htrimmed]
  rw [hcs] at hread ⊢
  dsimp only
  rw [List.cons_append, List.length_cons, readConditions?, ← List.cons_append, hread]
  simp [readConditions?]

end PageBindings.Selector
