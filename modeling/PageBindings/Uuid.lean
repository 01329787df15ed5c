/-!
# Random identifiers

A version 4 identifier is 122 random bits in groups of hexadecimal digits, with the version and the variant in two
fixed places.  `Uuid.format` spells the bits, `Uuid.isVersion4` recognises the form, and `Uuid.next` is the sequence
of bits that ids are taken from: a linear congruence of full period, so that no id comes up twice.
-/

namespace PageBindings.Uuid

/-- The hexadecimal digits, in lower case. -/
def hexDigits : List Char := ['0', '1', '2', '3', '4', '5', '6', '7', '8', '9', 'a', 'b', 'c', 'd', 'e', 'f']

/-- The last `width` hexadecimal digits of a number. -/
def digitGroup : Nat → Nat → List Char
  | 0, _ => []
  | width + 1, n => digitGroup width (n / 16) ++ [hexDigits.getD (n % 16) '0']

/-- The id of 122 bits. -/
def format (bits : Nat) : String :=
  String.ofList <|
    digitGroup 8 (bits >>> 90) ++ '-' :: digitGroup 4 (bits >>> 74) ++ '-' :: '4' :: digitGroup 3 (bits >>> 62) ++
      '-' :: digitGroup 1 (8 + (bits >>> 60) % 4) ++ digitGroup 3 (bits >>> 48) ++ '-' :: digitGroup 12 bits

/-- Whether a character may stand at a place of an id. -/
def fits (place : Nat) (c : Char) : Bool :=
  if place == 8 || place == 13 || place == 18 || place == 23 then c == '-'
  else if place == 14 then c == '4'
  else if place == 19 then c == '8' || c == '9' || c == 'a' || c == 'b'
  else hexDigits.contains c

/-- Whether a text is a version 4 identifier in lower case. -/
def isVersion4 (text : String) : Bool :=
  let cs := text.toList
  cs.length == 36 && (cs.zipIdx.all fun (c, place) => fits place c)

private theorem contains_hexDigits (n : Nat) : hexDigits.contains (hexDigits.getD (n % 16) '0') = true := by
  have h : n % 16 < 16 := Nat.mod_lt n (by decide)
  generalize n % 16 = k at h
  revert k
  decide

/-- The digit of the variant is one of the four that may stand in its place. -/
private theorem fits_variant (n : Nat) : fits 19 (hexDigits.getD ((8 + n % 4) % 16) '0') = true := by
  have h : n % 4 < 4 := Nat.mod_lt n (by decide)
  generalize n % 4 = k at h
  revert k
  decide

/-- Every id has the form of a version 4 identifier. -/
theorem isVersion4_format (bits : Nat) : isVersion4 (format bits) = true := by
  have hv := fits_variant (bits >>> 60)
  simp only [fits] at hv
  simp [isVersion4, format, digitGroup, fits, -List.getD_eq_getElem?_getD, -List.contains_eq_mem,
    contains_hexDigits] at hv ⊢
  exact hv

/-- The bits after these. -/
def next (bits : Nat) : Nat :=
  (bits * 47026247687942121848144207491837523525 + 117397592171526113268558934119004209487) % Nat.pow 2 122

/-- The bits of the first id. -/
def first : Nat :=
  3287592637142914629416292639472910472

/-- The first `count` ids made from these bits and the ones after them. -/
def sequence : Nat → Nat → List String
  | 0, _ => []
  | count + 1, bits => format bits :: sequence count (next bits)

end PageBindings.Uuid
