import Mathlib.Data.List.Forall2
import Mathlib.Data.List.Induction
import PageBindings.Proofs.Json.Grammar

/-!
# Which texts have a value

A text of the grammar has a value if its arrays and objects are not nested too deeply, no number in it is read as
infinite, and the code units in its strings join to characters (`exists_ofRaw?_iff`).  What an object has under a name
is the value of the last member of this name (`member?_sortMembers_eq_some_iff`).
-/

namespace PageBindings.Json

private theorem exists_map_iff {α β : Type} {f : α → β} {x : Option α} :
    (∃ b, x.map f = some b) ↔ ∃ a, x = some a := by
  cases x <;> simp

/-! ### Numbers -/

private theorem digitsValue_lt_of_isMachineInteger {n : Numeral} (h : IsMachineInteger n.integer) :
    digitsValue n.whole < 2 ^ 64 := by
  obtain ⟨hlower, hupper⟩ := h
  have hsigned : Int.pow 2 63 = 2 ^ 63 := rfl
  have hunsigned : Int.pow 2 64 = 2 ^ 64 := rfl
  unfold Numeral.integer at hlower hupper
  by_cases hnegative : n.negative = true
  · rw [if_pos hnegative] at hlower
    omega
  · rw [if_neg hnegative] at hupper
    omega

/-- A numeral has a value unless it is read as infinite. -/
theorem exists_value?_iff {n : Numeral} : (∃ number, n.value? = some number) ↔ ¬ n.decimal.Overflows := by
  unfold Numeral.value?
  split
  · rename_i hinteger
    obtain ⟨hmachine, hfraction, hexponent, -⟩ := hinteger
    have hwritten : n.written = ⟨digitsValue n.whole, 0⟩ := by
      simp [Numeral.written, Numeral.power, hfraction, hexponent]
    have hdecimal := n.decimal_eq_written (hwritten ▸ digitsValue_lt_of_isMachineInteger hmachine)
    have hfits : ¬ n.decimal.Overflows := Decimal.not_overflows (by rw [hdecimal, hwritten])
    simp [hfits]
  · have hread : Binary64.ofParts? n.negative n.decimal = none ↔ n.decimal.Overflows :=
      Binary64.ofParts?_eq_none_iff n.digits_decimal_lt
    rw [exists_map_iff, ← hread, ← Ne, Option.ne_none_iff_exists']

/-- Digits are rounded first: a decimal nearest to the largest double is refused, and one beyond it is read. -/
example :
    (Numeral.mk false ['1'] (some "7976931348623158".toList) (some (false, ['3', '0', '8']))).value? = none ∧
      (Numeral.mk false "179769313486231581".toList none (some (false, ['2', '9', '1']))).value?.isSome = true := by
  decide +kernel

/-! ### Values -/

namespace Raw

mutual

/-- How deeply arrays and objects are nested. -/
def depth : Raw → Nat
  | .array items => depthOfItems items + 1
  | .object members => depthOfMembers members + 1
  | .null | .bool _ | .number _ | .string _ => 0

/-- The greatest depth among items. -/
def depthOfItems : List Raw → Nat
  | [] => 0
  | item :: rest => max (depth item) (depthOfItems rest)

/-- The greatest depth among the values of members. -/
def depthOfMembers : List (List Piece × Raw) → Nat
  | [] => 0
  | (_, value) :: rest => max (depth value) (depthOfMembers rest)

end

mutual

/-- No number is read as infinite, and all strings and names are texts. -/
def IsReadable : Raw → Prop
  | .null | .bool _ => True
  | .number n => ¬ n.decimal.Overflows
  | .string pieces => ∃ text, textOf? pieces = some text
  | .array items => AreReadable items
  | .object members => HaveReadable members

/-- The same for the items of an array. -/
def AreReadable : List Raw → Prop
  | [] => True
  | item :: rest => IsReadable item ∧ AreReadable rest

/-- The same for the members of an object. -/
def HaveReadable : List (List Piece × Raw) → Prop
  | [] => True
  | (name, value) :: rest => (∃ text, textOf? name = some text) ∧ IsReadable value ∧ HaveReadable rest

end

end Raw

mutual

/-- A value is read if it keeps to the limits, and not otherwise. -/
theorem exists_ofRaw?_iff : ∀ {raw : Raw} {limit : Nat},
    (∃ v, ofRaw? limit raw = some v) ↔ raw.depth ≤ limit ∧ raw.IsReadable
  | .null, limit | .bool _, limit => by simp [ofRaw?, Raw.depth, Raw.IsReadable]
  | .number n, limit => by
    rw [ofRaw?, exists_map_iff, exists_value?_iff, Raw.depth, Raw.IsReadable]
    simp
  | .string pieces, limit => by
    cases hs : textOf? pieces <;> simp [ofRaw?, Raw.depth, Raw.IsReadable, hs]
  | .array items, 0 | .object members, 0 => by simp [ofRaw?, Raw.depth]
  | .array items, limit + 1 => by
    rw [ofRaw?, exists_map_iff, exists_itemsOfRaw?_iff, Raw.depth, Raw.IsReadable, Nat.succ_le_succ_iff]
  | .object members, limit + 1 => by
    rw [ofRaw?, exists_map_iff, exists_membersOfRaw?_iff, Raw.depth, Raw.IsReadable, Nat.succ_le_succ_iff]

theorem exists_itemsOfRaw?_iff : ∀ {raws : List Raw} {limit : Nat},
    (∃ items, itemsOfRaw? limit raws = some items) ↔ Raw.depthOfItems raws ≤ limit ∧ Raw.AreReadable raws
  | [], limit => by simp [itemsOfRaw?, Raw.depthOfItems, Raw.AreReadable]
  | raw :: raws, limit => by
    have hfirst : (∃ v, ofRaw? limit raw = some v) ↔ raw.depth ≤ limit ∧ raw.IsReadable := exists_ofRaw?_iff
    have hrest : (∃ items, itemsOfRaw? limit raws = some items) ↔
        Raw.depthOfItems raws ≤ limit ∧ Raw.AreReadable raws := exists_itemsOfRaw?_iff
    have hboth : (∃ items, itemsOfRaw? limit (raw :: raws) = some items) ↔
        (∃ v, ofRaw? limit raw = some v) ∧ ∃ items, itemsOfRaw? limit raws = some items := by
      rw [itemsOfRaw?]
      cases ofRaw? limit raw <;> cases itemsOfRaw? limit raws <;> simp
    rw [hboth, hfirst, hrest, Raw.depthOfItems, Raw.AreReadable, Nat.max_le]
    exact and_and_and_comm

theorem exists_membersOfRaw?_iff : ∀ {raws : List (List Piece × Raw)} {limit : Nat},
    (∃ members, membersOfRaw? limit raws = some members) ↔ Raw.depthOfMembers raws ≤ limit ∧ Raw.HaveReadable raws
  | [], limit => by simp [membersOfRaw?, Raw.depthOfMembers, Raw.HaveReadable]
  | (name, raw) :: raws, limit => by
    have hfirst : (∃ v, ofRaw? limit raw = some v) ↔ raw.depth ≤ limit ∧ raw.IsReadable := exists_ofRaw?_iff
    have hrest : (∃ members, membersOfRaw? limit raws = some members) ↔
        Raw.depthOfMembers raws ≤ limit ∧ Raw.HaveReadable raws := exists_membersOfRaw?_iff
    have hall : (∃ members, membersOfRaw? limit ((name, raw) :: raws) = some members) ↔
        (∃ text, textOf? name = some text) ∧ (∃ v, ofRaw? limit raw = some v) ∧
          ∃ members, membersOfRaw? limit raws = some members := by
      rw [membersOfRaw?]
      cases textOf? name <;> cases ofRaw? limit raw <;> cases membersOfRaw? limit raws <;> simp
    rw [hall, hfirst, hrest, Raw.depthOfMembers, Raw.HaveReadable, Nat.max_le]
    grind

end

/-! ### Members -/

section Members

variable {limit : Nat} {name : String} {v : Json} {raws : List (List Piece × Raw)} {members : List (String × Json)}

private theorem member?_cons (name : String) (m : String × Json) (members : List (String × Json)) :
    member? name (m :: members) = if m.1 = name then some m.2 else member? name members := by
  unfold member?
  rw [List.find?_cons]
  by_cases h : m.1 = name
  · simp [h]
  · simp [h, beq_false_of_ne h]

/-- Where a name occurs several times, the last one counts. -/
theorem member?_sortMembers (name : String) (members : List (String × Json)) :
    member? name (sortMembers members) = member? name members.reverse := by
  induction members using List.reverseRecOn with
  | nil => rfl
  | append_singleton members m ih =>
    have hlast : sortMembers (members ++ [m]) = insertMember m.1 m.2 (sortMembers members) := by
      unfold sortMembers
      rw [List.foldl_append]
      rfl
    rw [hlast, List.reverse_append, List.reverse_singleton, List.singleton_append, member?_cons]
    split
    · rename_i heq
      rw [← heq, member?_insertMember_self]
    · rename_i hne
      rw [member?_insertMember_of_ne (Ne.symm hne), ih]

/-- A member as it is written, and its name and value. -/
def IsMember (limit : Nat) (raw : List Piece × Raw) (m : String × Json) : Prop :=
  textOf? raw.1 = some m.1 ∧ ofRaw? limit raw.2 = some m.2

theorem membersOfRaw?_eq_some_iff :
    membersOfRaw? limit raws = some members ↔ List.Forall₂ (IsMember limit) raws members := by
  induction raws generalizing members with
  | nil =>
    rw [membersOfRaw?, List.forall₂_nil_left_iff, Option.some.injEq, eq_comm]
  | cons raw raws ih =>
    rw [List.forall₂_cons_left_iff]
    constructor
    · intro h
      obtain ⟨text, htext, h⟩ := Option.bind_eq_some_iff.1 h
      obtain ⟨value, hvalue, h⟩ := Option.bind_eq_some_iff.1 h
      obtain ⟨rest, hrest, h⟩ := Option.bind_eq_some_iff.1 h
      obtain rfl := Option.some.inj h
      exact ⟨(text, value), rest, ⟨htext, hvalue⟩, ih.1 hrest, rfl⟩
    · rintro ⟨⟨text, value⟩, rest, ⟨htext, hvalue⟩, hrest, rfl⟩
      rw [membersOfRaw?, htext, hvalue, ih.2 hrest]
      rfl

/-- Among members in their order the first one of a name counts. -/
private theorem member?_eq_some_iff (h : List.Forall₂ (IsMember limit) raws members) :
    member? name members = some v ↔ ∃ before pieces raw after, raws = before ++ (pieces, raw) :: after ∧
      textOf? pieces = some name ∧ ofRaw? limit raw = some v ∧ ∀ m ∈ before, textOf? m.1 ≠ some name := by
  induction h with
  | nil => simp [member?]
  | @cons raw m raws members hm _ ih =>
    obtain ⟨hname, hvalue⟩ := hm
    rw [member?_cons]
    by_cases heq : m.1 = name
    · rw [if_pos heq, Option.some.injEq]
      rw [heq] at hname
      constructor
      · rintro rfl
        exact ⟨[], raw.1, raw.2, raws, rfl, hname, hvalue, by simp⟩
      · rintro ⟨before, pieces, value, after, hraws, hpieces, hread, hbefore⟩
        cases before with
        | nil =>
          obtain ⟨rfl, -⟩ := List.cons.inj hraws
          exact Option.some.inj (hvalue.symm.trans hread)
        | cons first before =>
          obtain ⟨rfl, -⟩ := List.cons.inj hraws
          exact absurd hname (hbefore _ List.mem_cons_self)
    · have hother : textOf? raw.1 ≠ some name := fun h => heq (Option.some.inj (hname.symm.trans h))
      rw [if_neg heq, ih]
      constructor
      · rintro ⟨before, pieces, value, after, rfl, hpieces, hread, hbefore⟩
        exact ⟨raw :: before, pieces, value, after, rfl, hpieces, hread, List.forall_mem_cons.2 ⟨hother, hbefore⟩⟩
      · rintro ⟨before, pieces, value, after, hraws, hpieces, hread, hbefore⟩
        cases before with
        | nil =>
          obtain ⟨rfl, -⟩ := List.cons.inj hraws
          exact absurd hpieces hother
        | cons first before =>
          obtain ⟨rfl, rfl⟩ := List.cons.inj hraws
          exact ⟨before, pieces, value, after, rfl, hpieces, hread, (List.forall_mem_cons.1 hbefore).2⟩

/-- In an object the last member of a name counts. -/
theorem member?_sortMembers_eq_some_iff (h : membersOfRaw? limit raws = some members) :
    member? name (sortMembers members) = some v ↔ ∃ before pieces raw after, raws = before ++ (pieces, raw) :: after ∧
      textOf? pieces = some name ∧ ofRaw? limit raw = some v ∧ ∀ m ∈ after, textOf? m.1 ≠ some name := by
  rw [member?_sortMembers, member?_eq_some_iff (List.forall₂_reverse_iff.2 (membersOfRaw?_eq_some_iff.1 h))]
  constructor
  · rintro ⟨before, pieces, raw, after, hraws, hpieces, hread, hbefore⟩
    refine ⟨after.reverse, pieces, raw, before.reverse, ?_, hpieces, hread, fun m hm => ?_⟩
    · rw [← List.reverse_reverse raws, hraws]
      simp
    · exact hbefore m (List.mem_reverse.1 hm)
  · rintro ⟨before, pieces, raw, after, hraws, hpieces, hread, hafter⟩
    refine ⟨after.reverse, pieces, raw, before.reverse, ?_, hpieces, hread, fun m hm => ?_⟩
    · rw [hraws]
      simp
    · exact hafter m (List.mem_reverse.1 hm)

end Members

/-- The values of strings are strings, and nothing else has such a value. -/
theorem ofRaw?_eq_string_iff {limit : Nat} {raw : Raw} {text : String} :
    ofRaw? limit raw = some (.string text) ↔ raw.Spells text := by
  unfold Raw.Spells
  cases raw with
  | string pieces => simp [ofRaw?]
  | array items | object members => cases limit <;> simp [ofRaw?]
  | null | bool b | number n => simp [ofRaw?]

/-- The values of objects are objects, and nothing else has such a value. -/
theorem ofRaw?_eq_object_iff {limit : Nat} {raw : Raw} {members : List (String × Json)} :
    ofRaw? (limit + 1) raw = some (.object members) ↔ ∃ raws written, raw = .object raws ∧
      membersOfRaw? limit raws = some written ∧ members = sortMembers written := by
  cases raw with
  | object raws =>
    cases hraws : membersOfRaw? limit raws <;> simp [ofRaw?, hraws, eq_comm]
  | null | bool b | number n | string pieces | array items => simp [ofRaw?]

end PageBindings.Json
