import PageBindings.Text.Alphanumeric
import PageBindings.Text.Blank

/-!
# Selectors

A selector is a non-empty list of conditions on an element, all of which must hold; there are no combinators.
`Selector.parse?` reads `#NAME`, `.NAME`, `[NAME]`, `[NAME="TEXT"]` and `TAG`, written without anything between them.
A name is as long as it can be and may be empty, except that a tag starts with an alphanumeric character.  In the text
of a value a backslash stands for the character after it, and `\a` for a line feed with the space that may follow.
-/

namespace PageBindings

/-- A condition on an element. -/
inductive Condition where
  | tag (name : String)
  | id (id : String)
  | inClass (name : String)
  | has (name : String)
  | equals (name value : String)
deriving DecidableEq, Repr

/-- The conditions that an element must meet. -/
abbrev Selector := List Condition

namespace Selector

/-- The characters of names. -/
def isNameChar (c : Char) : Bool :=
  Text.isAlphanumeric c || c == '-' || c == '_'

/-- The name at the front, as long as it can be. -/
def takeName (cs : List Char) : String × List Char :=
  (String.ofList (cs.takeWhile isNameChar), cs.dropWhile isNameChar)

theorem takeName_append (cs : List Char) : (takeName cs).1.toList ++ (takeName cs).2 = cs := by
  simp [takeName, List.takeWhile_append_dropWhile]

theorem isNameChar_of_mem_takeName {cs : List Char} {c : Char} (h : c ∈ (takeName cs).1.toList) :
    isNameChar c = true := by
  simp only [takeName, String.toList_ofList] at h
  exact List.all_eq_true.1 List.all_takeWhile c h

/-- The rest of a quoted value, after its opening quote. -/
def readValue? : List Char → Option (List Char × List Char)
  | [] => none
  | '"' :: rest => some ([], rest)
  | '\\' :: 'a' :: ' ' :: rest => (readValue? rest).map fun (value, rest) => ('\n' :: value, rest)
  | '\\' :: 'a' :: rest => (readValue? rest).map fun (value, rest) => ('\n' :: value, rest)
  | '\\' :: c :: rest => (readValue? rest).map fun (value, rest) => (c :: value, rest)
  | c :: rest => if c = '\\' then none else (readValue? rest).map fun (value, rest) => (c :: value, rest)

/-- The rest of a condition on an attribute, after its opening bracket. -/
def readAttribute? (cs : List Char) : Option (Condition × List Char) :=
  let (name, rest) := takeName cs
  match rest with
  | ']' :: rest => some (.has name, rest)
  | '=' :: '"' :: rest =>
    match readValue? rest with
    | some (value, ']' :: rest) => some (.equals name (String.ofList value), rest)
    | _ => none
  | _ => none

/-- A condition. -/
def readCondition? : List Char → Option (Condition × List Char)
  | [] => none
  | '#' :: rest =>
    let (name, rest) := takeName rest
    some (.id name, rest)
  | '.' :: rest =>
    let (name, rest) := takeName rest
    some (.inClass name, rest)
  | '[' :: rest => readAttribute? rest
  | c :: rest =>
    if Text.isAlphanumeric c then
      let (name, rest) := takeName (c :: rest)
      some (.tag (name.map Char.toLower), rest)
    else none

/-- Conditions up to the end of the text; `fuel` bounds their number. -/
def readConditions? : Nat → List Char → Option (List Condition)
  | _, [] => some []
  | 0, _ :: _ => none
  | fuel + 1, c :: cs => do
    let (condition, rest) ← readCondition? (c :: cs)
    let conditions ← readConditions? fuel rest
    return condition :: conditions

/-- The selector that a text spells, with blanks around it; every condition takes a character or more. -/
def parse? (text : String) : Option Selector :=
  let cs := Text.trimmed text.toList
  match readConditions? cs.length cs with
  | some (condition :: conditions) => some (condition :: conditions)
  | _ => none

end Selector

end PageBindings
