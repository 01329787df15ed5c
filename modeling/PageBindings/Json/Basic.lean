import PageBindings.Number.Notation
import PageBindings.Text.Quoted

/-!
# JSON values

A number is an integer of 64 bits, signed or unsigned, or a double; the two are never equal (`Json.Number`).  The
members of an object are kept sorted by name and each name occurs once (`Json.IsSorted`), so that order is no part of
an object; `Json.insertMember` keeps it that way.  Equality `==` compares numbers as numbers: `0.0 == -0.0`.
-/

namespace PageBindings

namespace Json

/-- The integers that are kept exactly: those of 64 bits, with or without a sign. -/
def IsMachineInteger (n : Int) : Prop :=
  -Int.pow 2 63 ≤ n ∧ n < Int.pow 2 64

instance (n : Int) : Decidable (IsMachineInteger n) := by
  unfold IsMachineInteger
  infer_instance

/-- A number of a JSON text. -/
inductive Number where
  | integer (value : Int) (isMachineInteger : IsMachineInteger value)
  | double (value : Binary64)
deriving DecidableEq

/-- Equality as numbers, where an integer never equals a double. -/
def Number.same : Number → Number → Bool
  | .integer a _, .integer b _ => a == b
  | .double a, .double b => a.sameNumber b
  | _, _ => false

end Json

/-- A JSON value.  The members of an object are sorted by name. -/
inductive Json where
  | null
  | bool (value : Bool)
  | number (value : Json.Number)
  | string (value : String)
  | array (items : List Json)
  | object (members : List (String × Json))

instance : Inhabited Json := ⟨.null⟩

namespace Json

mutual

/-- Equality of values, with numbers compared as numbers. -/
def same : Json → Json → Bool
  | .null, .null => true
  | .bool a, .bool b => a == b
  | .number a, .number b => a.same b
  | .string a, .string b => a == b
  | .array as, .array bs => sameItems as bs
  | .object as, .object bs => sameMembers as bs
  | _, _ => false

/-- Equality of the items of two arrays. -/
def sameItems : List Json → List Json → Bool
  | [], [] => true
  | a :: as, b :: bs => same a b && sameItems as bs
  | _, _ => false

/-- Equality of the members of two objects. -/
def sameMembers : List (String × Json) → List (String × Json) → Bool
  | [], [] => true
  | (k, a) :: as, (l, b) :: bs => k == l && same a b && sameMembers as bs
  | _, _ => false

end

instance : BEq Json := ⟨same⟩

mutual

/-- How deeply arrays and objects are nested. -/
def depth : Json → Nat
  | .array items => depthItems items + 1
  | .object members => depthMembers members + 1
  | _ => 0

/-- The greatest depth among items. -/
def depthItems : List Json → Nat
  | [] => 0
  | v :: rest => max (depth v) (depthItems rest)

/-- The greatest depth among members. -/
def depthMembers : List (String × Json) → Nat
  | [] => 0
  | (_, v) :: rest => max (depth v) (depthMembers rest)

end

mutual

/-- Every object of the value has its members sorted by name, each name once. -/
def IsSorted : Json → Prop
  | .array items => IsSortedItems items
  | .object members => (members.map (·.1)).Pairwise (· < ·) ∧ IsSortedMembers members
  | _ => True

/-- All items are sorted. -/
def IsSortedItems : List Json → Prop
  | [] => True
  | v :: rest => IsSorted v ∧ IsSortedItems rest

/-- All members are sorted. -/
def IsSortedMembers : List (String × Json) → Prop
  | [] => True
  | (_, v) :: rest => IsSorted v ∧ IsSortedMembers rest

end

/-- Adds a member at its place; one of the same name is replaced. -/
def insertMember (name : String) (value : Json) : List (String × Json) → List (String × Json)
  | [] => [(name, value)]
  | (k, v) :: rest =>
    if name < k then (name, value) :: (k, v) :: rest
    else if name = k then (name, value) :: rest
    else (k, v) :: insertMember name value rest

/-- Sorts members by name; of several with one name the last stays. -/
def sortMembers (members : List (String × Json)) : List (String × Json) :=
  members.foldl (fun sorted m => insertMember m.1 m.2 sorted) []

/-- The value of the member with this name. -/
def member? (name : String) (members : List (String × Json)) : Option Json :=
  (members.find? (·.1 == name)).map (·.2)

theorem member?_insertMember_self (name : String) (value : Json) (members : List (String × Json)) :
    member? name (insertMember name value members) = some value := by
  induction members with
  | nil => simp [insertMember, member?]
  | cons m rest ih =>
    obtain ⟨k, v⟩ := m
    unfold insertMember
    split
    · simp [member?]
    · split
      · simp [member?]
      · rename_i hne
        simpa [member?, List.find?_cons, Ne.symm hne] using ih

theorem member?_insertMember_of_ne {name other : String} (h : other ≠ name) (value : Json)
    (members : List (String × Json)) : member? other (insertMember name value members) = member? other members := by
  induction members with
  | nil => simp [insertMember, member?, h.symm]
  | cons m rest ih =>
    obtain ⟨k, v⟩ := m
    unfold insertMember
    split
    · simp [member?, h.symm]
    · split
      · rename_i he
        subst he
        simp [member?, h.symm]
      · by_cases hk : k = other
        · simp [member?, hk]
        · simpa [member?, List.find?_cons, hk] using ih

theorem mem_insertMember {name : String} {value : Json} {members : List (String × Json)} {m : String × Json}
    (h : m ∈ insertMember name value members) : m = (name, value) ∨ m ∈ members := by
  induction members with
  | nil => simpa [insertMember] using h
  | cons first rest ih =>
    obtain ⟨k, v⟩ := first
    unfold insertMember at h
    split at h
    · simpa using h
    · split at h
      · rcases List.mem_cons.1 h with h | h
        · exact .inl h
        · exact .inr (List.mem_cons_of_mem _ h)
      · rcases List.mem_cons.1 h with h | h
        · exact .inr (h ▸ List.mem_cons_self)
        · exact (ih h).imp_right (List.mem_cons_of_mem _)

theorem pairwise_insertMember {members : List (String × Json)} (name : String) (value : Json)
    (h : (members.map (·.1)).Pairwise (· < ·)) :
    ((insertMember name value members).map (·.1)).Pairwise (· < ·) := by
  induction members with
  | nil => simp [insertMember]
  | cons m rest ih =>
    obtain ⟨k, v⟩ := m
    have hk := List.pairwise_cons.1 h
    unfold insertMember
    split
    · rename_i hlt
      refine List.pairwise_cons.2 ⟨?_, h⟩
      intro other ho
      rcases List.mem_cons.1 ho with rfl | ho
      · exact hlt
      · exact String.lt_trans hlt (hk.1 other ho)
    · split
      · rename_i he
        subst he
        exact h
      · rename_i hnl hne
        refine List.pairwise_cons.2 ⟨?_, ih hk.2⟩
        intro other ho
        obtain ⟨m, hm, rfl⟩ := List.mem_map.1 ho
        rcases mem_insertMember hm with rfl | hm
        · exact Std.lt_of_le_of_ne (String.not_lt.1 hnl) (Ne.symm hne)
        · exact hk.1 _ (List.mem_map_of_mem hm)

/-- Sorted members have increasing names. -/
theorem pairwise_sortMembers (members : List (String × Json)) :
    ((sortMembers members).map (·.1)).Pairwise (· < ·) := by
  unfold sortMembers
  suffices ∀ sorted : List (String × Json), (sorted.map (·.1)).Pairwise (· < ·) →
      ((members.foldl (fun sorted m => insertMember m.1 m.2 sorted) sorted).map (·.1)).Pairwise (· < ·) from
    this [] .nil
  induction members with
  | nil => exact fun _ h => h
  | cons m rest ih => exact fun _ h => ih _ (pairwise_insertMember m.1 m.2 h)

/-- What a value is, as messages about unexpected values put it. -/
def describe : Json → String
  | .null => "null"
  | .bool b => "boolean \x60" ++ (if b then "true" else "false") ++ "\x60"
  | .number (.integer n _) => "integer \x60" ++ toString n ++ "\x60"
  | .number (.double x) => "floating point \x60" ++ String.ofList x.write ++ "\x60"
  | .string s => "string " ++ Text.quoted s
  | .array _ => "sequence"
  | .object _ => "map"

/-- The integer as a value; beyond 64 bits it is no JSON integer. -/
def integer? (n : Int) : Option Json :=
  if h : IsMachineInteger n then some (.number (.integer n h)) else none

end Json

end PageBindings
