import Mathlib.Data.List.Forall2
import PageBindings.Proofs.Json.Grammar
import PageBindings.Settings.Record

/-!
# Values of settings in the grammar

A reader of a setting reads off the front of a text one value of the JSON grammar, and only values of one form
(`Settings.Reads`).  For strings, strings or null and arrays of strings the forms are those of the types.
-/

namespace PageBindings

namespace Json

/-- A string that stands for a text, or null. -/
def Raw.SpellsOptional (raw : Raw) : Option String → Prop
  | none => raw = .null
  | some text => raw.Spells text

/-- An array of strings that stand for the texts. -/
def Raw.SpellsAll (raw : Raw) (texts : List String) : Prop :=
  ∃ items, raw = .array items ∧ List.Forall₂ Raw.Spells items texts

end Json

namespace Settings

open Json

variable {α β : Type} {cs rest : List Char} {a : α}

/-- A reader takes a value of the given form from the front of a text, with the white space before it, and fails where
there is none. -/
def Reads (read : List Char → Except SettingsError (α × List Char)) (form : Raw → α → Prop) : Prop :=
  ∀ {cs a rest}, read cs = .ok (a, rest) ↔ ∃ inner raw, SpaceAt cs inner ∧ ValueAt inner raw rest ∧ form raw a

theorem bind_eq_ok_iff {x : Except SettingsError α} {f : α → Except SettingsError β} {b : β} :
    x >>= f = .ok b ↔ ∃ a, x = .ok a ∧ f a = .ok b := by
  cases x <;> simp [bind, Except.bind]

theorem grammatical_eq_ok_iff {x : Option α} : grammatical x = .ok a ↔ x = some a := by
  cases x <;> simp [grammatical]

theorem wrongType_ne_ok {expected : String} : wrongType expected cs ≠ .ok a := by
  unfold wrongType
  split
  · simp
  · simp
  · intro h
    obtain ⟨⟨raw, rest⟩, -, h⟩ := bind_eq_ok_iff.1 h
    obtain ⟨value, -, h⟩ := bind_eq_ok_iff.1 h
    simp at h

theorem reads_string : Reads readString Raw.Spells := by
  intro cs text rest
  constructor
  · intro h
    unfold readString at h
    split at h
    · rename_i inner hinner
      obtain ⟨⟨pieces, after⟩, hpieces, h⟩ := bind_eq_ok_iff.1 h
      obtain ⟨read, hread, h⟩ := bind_eq_ok_iff.1 h
      obtain ⟨rfl, rfl⟩ := Prod.mk.inj (Except.ok.inj h)
      have hstring := readPieces?_eq_some_iff.1 (grammatical_eq_ok_iff.1 hpieces)
      exact ⟨_, _, spaceAt_of_skipSpace_eq hinner, .string hstring, pieces, rfl, grammatical_eq_ok_iff.1 hread⟩
    · exact absurd h wrongType_ne_ok
  · rintro ⟨inner, raw, hspace, hvalue, pieces, rfl, htext⟩
    cases hvalue with
    | string hstring =>
      unfold readString
      rw [hspace.skipSpace_of_cons (by decide)]
      simp [readPieces?_eq_some_iff.2 hstring, htext, grammatical, bind, Except.bind, pure, Except.pure]

theorem reads_optionalString : Reads readOptionalString Raw.SpellsOptional := by
  intro cs text rest
  constructor
  · intro h
    unfold readOptionalString at h
    split at h
    · rename_i inner hinner
      split at h
      · rename_i after hafter
        obtain ⟨rfl, rfl⟩ := Prod.mk.inj (Except.ok.inj h)
        exact ⟨_, _, spaceAt_of_skipSpace_eq hinner, .null, rfl⟩
      · simp at h
    · obtain ⟨⟨read, after⟩, hread, h⟩ := bind_eq_ok_iff.1 h
      obtain ⟨rfl, rfl⟩ := Prod.mk.inj (Except.ok.inj h)
      obtain ⟨inner, raw, hspace, hvalue, hform⟩ := reads_string.1 hread
      exact ⟨inner, raw, hspace.of_skipSpace, hvalue, hform⟩
  · rintro ⟨inner, raw, hspace, hvalue, hform⟩
    cases text with
    | none =>
      obtain rfl : raw = .null := hform
      cases hvalue with
      | null =>
        unfold readOptionalString
        rw [hspace.skipSpace_of_cons (by decide)]
        rfl
    | some text =>
      have hread := reads_string.2 ⟨inner, raw, SpaceAt.refl inner, hvalue, hform⟩
      obtain ⟨pieces, rfl, -⟩ := hform
      cases hvalue with
      | string hstring =>
        unfold readOptionalString
        rw [hspace.skipSpace_of_cons (by decide)]
        show (readString ('"' :: _) >>= fun read => pure (some read.1, read.2)) = _
        rw [hread]
        rfl

/-! ### Arrays -/

theorem readAfterElement_closed_iff : readAfterElement cs = .ok (.closed rest) ↔ SpaceAt cs (']' :: rest) := by
  rw [spaceAt_cons_iff (by decide)]
  unfold readAfterElement
  constructor
  · intro h
    split at h
    · rename_i after hafter
      obtain rfl := AfterElement.closed.inj (Except.ok.inj h)
      exact hafter
    · split at h <;> simp [pure, Except.pure] at h
    · simp at h
  · intro h
    rw [h]
    rfl

theorem readAfterElement_another_iff : readAfterElement cs = .ok (.another rest) ↔
    ∃ more, SpaceAt cs (',' :: more) ∧ skipSpace more = rest ∧ rest ≠ [] ∧ ∀ after, rest ≠ ']' :: after := by
  unfold readAfterElement
  constructor
  · intro h
    split at h
    · simp [pure, Except.pure] at h
    · rename_i more hmore
      split at h
      · simp at h
      · simp at h
      · rename_i hclose hempty
        obtain rfl := AfterElement.another.inj (Except.ok.inj h)
        exact ⟨more, spaceAt_of_skipSpace_eq hmore, rfl, hempty, hclose⟩
    · simp at h
  · rintro ⟨more, hcomma, rfl, hempty, hclose⟩
    rw [hcomma.skipSpace_of_cons (by decide)]
    simp only
    rfl

/-- The last item of an array, with its closing bracket. -/
theorem Reads.closed_iff {read : List Char → Except SettingsError (α × List Char)} {form : Raw → α → Prop}
    (h : Reads read form) :
    (∃ mid, read cs = .ok (a, mid) ∧ readAfterElement mid = .ok (.closed rest)) ↔
      ∃ v, ElementAt cs v (']' :: rest) ∧ form v a := by
  constructor
  · rintro ⟨mid, hread, hclosed⟩
    obtain ⟨inner, v, before, hvalue, hform⟩ := h.1 hread
    exact ⟨v, .intro before hvalue (readAfterElement_closed_iff.1 hclosed), hform⟩
  · rintro ⟨v, ⟨before, hvalue, hspace⟩, hform⟩
    exact ⟨_, h.2 ⟨_, v, before, hvalue, hform⟩, readAfterElement_closed_iff.2 hspace⟩

/-- An item with the comma after it. -/
theorem Reads.another_iff {read : List Char → Except SettingsError (α × List Char)} {form : Raw → α → Prop}
    (h : Reads read form) :
    (∃ mid, read cs = .ok (a, mid) ∧ readAfterElement mid = .ok (.another rest)) ↔
      ∃ v more, ElementAt cs v (',' :: more) ∧ form v a ∧ skipSpace more = rest ∧ rest ≠ [] ∧
        ∀ after, rest ≠ ']' :: after := by
  constructor
  · rintro ⟨mid, hread, hanother⟩
    obtain ⟨inner, v, before, hvalue, hform⟩ := h.1 hread
    obtain ⟨more, hspace, hrest⟩ := readAfterElement_another_iff.1 hanother
    exact ⟨v, more, .intro before hvalue hspace, hform, hrest⟩
  · rintro ⟨v, more, ⟨before, hvalue, hspace⟩, hform, hrest⟩
    exact ⟨_, h.2 ⟨_, v, before, hvalue, hform⟩, readAfterElement_another_iff.2 ⟨more, hspace, hrest⟩⟩

theorem readStringsWithin_eq_ok_iff {fuel : Nat} {texts : List String} (hfuel : cs.length ≤ fuel) :
    readStringsWithin fuel cs = .ok (texts, rest) ↔
      ∃ items, ItemsAt cs items rest ∧ List.Forall₂ Raw.Spells items texts := by
  induction fuel generalizing cs texts with
  | zero =>
    constructor
    · intro h
      simp [readStringsWithin] at h
    · rintro ⟨items, hitems, -⟩
      have hlt := hitems.length_lt
      omega
  | succ fuel ih =>
    unfold readStringsWithin
    constructor
    · intro h
      obtain ⟨⟨text, mid⟩, hread, h⟩ := bind_eq_ok_iff.1 h
      obtain ⟨after, hafter, h⟩ := bind_eq_ok_iff.1 h
      cases after with
      | closed last =>
        obtain ⟨rfl, rfl⟩ := Prod.mk.inj (Except.ok.inj h)
        obtain ⟨v, item, hv⟩ := reads_string.closed_iff.1 ⟨mid, hread, hafter⟩
        exact ⟨[v], .last item, .cons hv .nil⟩
      | another next =>
        obtain ⟨⟨others, last⟩, hothers, h⟩ := bind_eq_ok_iff.1 h
        obtain ⟨rfl, rfl⟩ := Prod.mk.inj (Except.ok.inj h)
        obtain ⟨v, more, item, hv, rfl, -⟩ := reads_string.another_iff.1 ⟨mid, hread, hafter⟩
        have hlength := item.length_lt
        have hskip := (spaceAt_skipSpace more).length_le
        rw [List.length_cons] at hlength
        obtain ⟨items, hitems, hforms⟩ := (ih (by omega)).1 hothers
        exact ⟨v :: items, .next item (ItemsAt.skipSpace_iff.1 hitems), .cons hv hforms⟩
    · rintro ⟨items, hitems, hforms⟩
      cases hitems with
      | last item =>
        obtain ⟨text, others, hv, hnone, rfl⟩ := List.forall₂_cons_left_iff.1 hforms
        obtain rfl := List.forall₂_nil_left_iff.1 hnone
        obtain ⟨mid, hread, hafter⟩ := reads_string.closed_iff.2 ⟨_, item, hv⟩
        rw [hread]
        simp [bind, Except.bind, hafter, pure, Except.pure]
      | @next _ more _ _ _ item hitems =>
        obtain ⟨text, others, hv, hothers, rfl⟩ := List.forall₂_cons_left_iff.1 hforms
        obtain ⟨mid, hread, hafter⟩ := reads_string.another_iff.2
          ⟨_, _, item, hv, rfl, hitems.skipSpace_ne_nil, hitems.skipSpace_ne⟩
        have hlength := item.length_lt
        have hskip := (spaceAt_skipSpace more).length_le
        rw [List.length_cons] at hlength
        have hmore := (ih (by omega)).2 ⟨_, ItemsAt.skipSpace_iff.2 hitems, hothers⟩
        rw [hread]
        simp [bind, Except.bind, hafter, hmore, pure, Except.pure]

theorem reads_strings : Reads readStrings Raw.SpellsAll := by
  intro cs texts rest
  constructor
  · intro h
    unfold readStrings at h
    split at h
    · rename_i inner hinner
      have hbefore := spaceAt_of_skipSpace_eq hinner
      split at h
      · rename_i after hafter
        obtain ⟨rfl, rfl⟩ := Prod.mk.inj (Except.ok.inj h)
        exact ⟨_, _, hbefore, .noItems (spaceAt_of_skipSpace_eq hafter), [], rfl, .nil⟩
      · obtain ⟨items, hitems, hforms⟩ := (readStringsWithin_eq_ok_iff (le_refl _)).1 h
        exact ⟨_, _, hbefore, .array (ItemsAt.skipSpace_iff.1 hitems), items, rfl, hforms⟩
    · exact absurd h wrongType_ne_ok
  · rintro ⟨inner, raw, hspace, hvalue, items, rfl, hforms⟩
    unfold readStrings
    cases hvalue with
    | noItems hclose =>
      obtain rfl := List.forall₂_nil_left_iff.1 hforms
      rw [hspace.skipSpace_of_cons (by decide)]
      simp only
      rw [hclose.skipSpace_of_cons (by decide)]
      rfl
    | array hitems =>
      rw [hspace.skipSpace_of_cons (by decide)]
      simp only
      split
      · rename_i after hafter
        exact absurd hafter (hitems.skipSpace_ne after)
      · exact (readStringsWithin_eq_ok_iff (le_refl _)).2 ⟨items, ItemsAt.skipSpace_iff.2 hitems, hforms⟩

end Settings

end PageBindings
