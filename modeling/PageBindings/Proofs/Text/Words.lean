import Mathlib.Data.List.TakeWhile
import PageBindings.Text.Blank

/-!
# Words and trimmed texts

The words of a text are the runs of characters that are not blank, with blanks or the ends of the text around them
(`Text.mem_words_iff`).  A trimmed text is the same whatever blanks were around it (`Text.trimmed_append`).
-/

namespace PageBindings.Text

variable {cs before after word : List Char} {c : Char}

/-! ### Trimmed texts -/

/-- Blanks around a text are not in its trimmed form. -/
theorem trimmed_append (hbefore : ∀ c ∈ before, isBlank c = true) (hafter : ∀ c ∈ after, isBlank c = true)
    (cs : List Char) : trimmed (before ++ cs ++ after) = trimmed cs := by
  have hdrop : (before ++ cs ++ after).dropWhile isBlank = (cs ++ after).dropWhile isBlank := by
    rw [List.append_assoc, List.dropWhile_append_of_pos hbefore]
  unfold trimmed
  rw [hdrop]
  by_cases hcs : ∀ c ∈ cs, isBlank c = true
  · have hall : ∀ c ∈ cs ++ after, isBlank c = true := List.forall_mem_append.2 ⟨hcs, hafter⟩
    rw [List.dropWhile_eq_nil_iff.2 hall, List.dropWhile_eq_nil_iff.2 hcs]
  · have hne : ¬ (cs.dropWhile isBlank).isEmpty = true := by
      rw [List.isEmpty_iff, List.dropWhile_eq_nil_iff]
      exact hcs
    have hreverse : ∀ c ∈ after.reverse, isBlank c = true := fun c hc => hafter c (List.mem_reverse.1 hc)
    rw [List.dropWhile_append, if_neg hne]
    unfold trimEnd
    rw [List.reverse_append, List.dropWhile_append_of_pos hreverse]

/-! ### Words -/

/-- Characters that are not blank, at least one, in front of a blank or the end of the text. -/
structure IsRun (word after : List Char) : Prop where
  nonempty : word ≠ []
  not_blank : ∀ c ∈ word, isBlank c = false
  ends : ∀ c ∈ after.head?, isBlank c = true

/-- A run of characters that are not blank, with blanks or the ends of the text around it. -/
def IsWord (word text : List Char) : Prop :=
  ∃ before after, text = before ++ word ++ after ∧ IsRun word after ∧ ∀ c ∈ before.getLast?, isBlank c = true

/-- The words of a row of characters: its first word, unless this is empty, and the others. -/
private def wordsOf (cs : List Char) : List (List Char) :=
  if (wordsFrom cs).1.isEmpty then (wordsFrom cs).2 else (wordsFrom cs).1 :: (wordsFrom cs).2

private theorem mem_wordsOf_iff : word ∈ wordsOf cs ↔
    word = (wordsFrom cs).1 ∧ word ≠ [] ∨ word ∈ (wordsFrom cs).2 := by
  unfold wordsOf
  split
  · rename_i hempty
    rw [List.isEmpty_iff] at hempty
    rw [hempty]
    simp
  · rename_i hne
    rw [List.isEmpty_iff] at hne
    rw [List.mem_cons]
    constructor
    · rintro (rfl | hmem)
      · exact .inl ⟨rfl, hne⟩
      · exact .inr hmem
    · rintro (⟨rfl, -⟩ | hmem)
      · exact .inl rfl
      · exact .inr hmem

private theorem wordsFrom_cons_of_blank (hc : isBlank c = true) (cs : List Char) :
    wordsFrom (c :: cs) = ([], wordsOf cs) := by
  show (if isBlank c then _ else _) = _
  rw [if_pos hc]
  rfl

private theorem wordsFrom_cons_of_not_blank (hc : isBlank c = false) (cs : List Char) :
    wordsFrom (c :: cs) = (c :: (wordsFrom cs).1, (wordsFrom cs).2) := by
  show (if isBlank c then _ else _) = _
  rw [if_neg (by simp [hc])]
  rfl

private theorem fst_wordsFrom (cs : List Char) : (wordsFrom cs).1 = cs.takeWhile fun c => !isBlank c := by
  induction cs with
  | nil => rfl
  | cons c cs ih =>
    cases hc : isBlank c with
    | true => rw [wordsFrom_cons_of_blank hc, List.takeWhile_cons_of_neg (by simp [hc])]
    | false => rw [wordsFrom_cons_of_not_blank hc, List.takeWhile_cons_of_pos (by simp [hc]), ih]

/-- The first word, if the text does not begin with a blank. -/
private theorem eq_fst_wordsFrom_iff :
    word = (wordsFrom cs).1 ∧ word ≠ [] ↔ ∃ after, cs = word ++ after ∧ IsRun word after := by
  rw [fst_wordsFrom]
  constructor
  · rintro ⟨rfl, hne⟩
    refine ⟨cs.dropWhile fun c => !isBlank c, List.takeWhile_append_dropWhile.symm, hne,
      fun c hc => ?_, fun c hc => ?_⟩
    · simpa using List.mem_takeWhile_imp hc
    · have hhead := List.head?_dropWhile_not (fun c => !isBlank c) cs
      rw [hc] at hhead
      simpa using hhead
  · rintro ⟨after, rfl, hne, hnot, hends⟩
    have hword : ∀ c ∈ word, (!isBlank c) = true := fun c hc => by simp [hnot c hc]
    have hafter : after.takeWhile (fun c => !isBlank c) = [] := by
      cases after with
      | nil => rfl
      | cons c after => rw [List.takeWhile_cons_of_neg (by simp [hends c rfl])]
    rw [List.takeWhile_append_of_pos hword, hafter, List.append_nil]
    exact ⟨rfl, hne⟩

/-- A later word stands after a blank. -/
private theorem mem_snd_wordsFrom_iff : word ∈ (wordsFrom cs).2 ↔
    ∃ before blank after, cs = before ++ blank :: (word ++ after) ∧ isBlank blank = true ∧ IsRun word after := by
  induction cs with
  | nil => simp [wordsFrom]
  | cons c cs ih =>
    cases hc : isBlank c with
    | true =>
      rw [wordsFrom_cons_of_blank hc, mem_wordsOf_iff, eq_fst_wordsFrom_iff, ih]
      constructor
      · rintro (⟨after, rfl, hrun⟩ | ⟨before, blank, after, rfl, hblank, hrun⟩)
        · exact ⟨[], c, after, rfl, hc, hrun⟩
        · exact ⟨c :: before, blank, after, rfl, hblank, hrun⟩
      · rintro ⟨before, blank, after, heq, hblank, hrun⟩
        cases before with
        | nil => exact .inl ⟨after, (List.cons.inj heq).2, hrun⟩
        | cons first before => exact .inr ⟨before, blank, after, (List.cons.inj heq).2, hblank, hrun⟩
    | false =>
      rw [wordsFrom_cons_of_not_blank hc, ih]
      constructor
      · rintro ⟨before, blank, after, rfl, hblank, hrun⟩
        exact ⟨c :: before, blank, after, rfl, hblank, hrun⟩
      · rintro ⟨before, blank, after, heq, hblank, hrun⟩
        cases before with
        | nil =>
          rw [(List.cons.inj heq).1, hblank] at hc
          simp at hc
        | cons first before => exact ⟨before, blank, after, (List.cons.inj heq).2, hblank, hrun⟩

/-- The words of a text are its runs of characters that are not blank. -/
theorem mem_words_iff {word text : String} : word ∈ words text ↔ IsWord word.toList text.toList := by
  have hmem : word ∈ words text ↔ word.toList ∈ wordsOf text.toList := by
    show word ∈ (wordsOf text.toList).map String.ofList ↔ _
    rw [List.mem_map]
    constructor
    · rintro ⟨cs, hcs, rfl⟩
      rwa [String.toList_ofList]
    · exact fun h => ⟨_, h, String.ofList_toList⟩
  rw [hmem, mem_wordsOf_iff, eq_fst_wordsFrom_iff, mem_snd_wordsFrom_iff]
  constructor
  · rintro (⟨after, heq, hrun⟩ | ⟨before, blank, after, heq, hblank, hrun⟩)
    · exact ⟨[], after, by simpa using heq, hrun, by simp⟩
    · exact ⟨before ++ [blank], after, by simpa using heq, hrun, by simpa using hblank⟩
  · rintro ⟨before, after, heq, hrun, hstarts⟩
    rcases List.eq_nil_or_concat before with rfl | ⟨before, blank, rfl⟩
    · exact .inl ⟨after, by simpa using heq, hrun⟩
    · exact .inr ⟨before, blank, after, by simpa using heq, hstarts blank (by simp), hrun⟩

end PageBindings.Text
