import PageBindings.Json.Raw
import PageBindings.Text.FormEncoding

/-!
# Reading form-encoded texts

A query is a list of pairs with `&` between them, each a name and a value with the first `=` between them, both form
encoded (`formPairs?`; `formFields` where their bytes need not be texts).  A text that was encoded is decoded as
itself (`formDecoded?_formEncoded`) and has no character that stands between names, values or pairs
(`isFormChar_of_mem_formEncoded`), so that a pair of encoded texts at the end of a query is one more piece of it and
leaves the others as they are (`formPieces_append`).
-/

namespace PageBindings.Text

/-! ### Decoding -/

/-- The bytes that form-encoded characters stand for.  A percent sign without two digits stands for itself. -/
def formBytes : List Char → List UInt8
  | [] => []
  | '+' :: rest => 0x20 :: formBytes rest
  | '%' :: a :: b :: rest =>
    match Json.hexValue? a, Json.hexValue? b with
    | some high, some low => UInt8.ofNat (16 * high + low) :: formBytes rest
    | _, _ => 0x25 :: formBytes (a :: b :: rest)
  | c :: rest => String.utf8EncodeChar c ++ formBytes rest

/-- The text that a form-encoded text stands for, if its bytes are the UTF-8 form of one. -/
def formDecoded? (s : String) : Option String :=
  String.fromUTF8? ⟨(formBytes s.toList).toArray⟩

/-- The name and the value of a pair. -/
def formPair? (piece : List Char) : Option (String × String) := do
  let name ← formDecoded? (String.ofList (piece.takeWhile (· != '=')))
  let value ← formDecoded? (String.ofList ((piece.dropWhile (· != '=')).drop 1))
  return (name, value)

/-- The pairs of a query, where nothing between two `&` is no pair. -/
def formPairs? (query : List Char) : Option (List (String × String)) :=
  ((query.splitOn '&').filter fun piece => !piece.isEmpty).mapM formPair?

/-- What a query has between its `&`, unless it is nothing. -/
def formPieces (query : List Char) : List (List Char) :=
  (query.splitOn '&').filter fun piece => !piece.isEmpty

/-- The bytes of the name and of the value of a pair. -/
def formField (piece : List Char) : List UInt8 × List UInt8 :=
  (formBytes (piece.takeWhile (· != '=')), formBytes ((piece.dropWhile (· != '=')).drop 1))

/-- The pairs of a query in bytes, which a query has whether or not they are texts. -/
def formFields (query : List Char) : List (List UInt8 × List UInt8) :=
  (formPieces query).map formField

/-- The bytes of a text. -/
def utf8 (s : String) : List UInt8 :=
  s.toUTF8.data.toList

theorem formPairs?_eq (query : List Char) : formPairs? query = (formPieces query).mapM formPair? :=
  rfl

/-! ### Encoded characters -/

/-- The characters of form-encoded texts. -/
def IsFormChar (c : Char) : Prop :=
  c.isAlphanum = true ∨ c ∈ ['*', '-', '.', '_', '+', '%']

instance : DecidablePred IsFormChar := fun c => by
  unfold IsFormChar
  infer_instance

theorem not_isFormChar_amp : ¬IsFormChar '&' := by
  decide

theorem not_isFormChar_equals : ¬IsFormChar '=' := by
  decide

private theorem hexValue?_hexDigitUpper {n : Nat} (h : n < 16) : Json.hexValue? (hexDigitUpper n) = some n := by
  have hall : ∀ n < 16, Json.hexValue? (hexDigitUpper n) = some n := by decide
  exact hall n h

private theorem isAlphanum_hexDigitUpper {n : Nat} (h : n < 16) : (hexDigitUpper n).isAlphanum = true := by
  have hall : ∀ n < 16, (hexDigitUpper n).isAlphanum = true := by decide
  exact hall n h

/-- A byte that stands for itself is an ASCII character, which is neither a plus sign nor a percent sign. -/
private theorem plain_char {b : UInt8} (h : isFormPlain b = true) :
    String.utf8EncodeChar (Char.ofNat b.toNat) = [b] ∧ Char.ofNat b.toNat ≠ '+' ∧ Char.ofNat b.toNat ≠ '%' := by
  have hall : ∀ n < 256, isFormPlain (UInt8.ofNat n) = true →
      String.utf8EncodeChar (Char.ofNat n) = [UInt8.ofNat n] ∧ Char.ofNat n ≠ '+' ∧ Char.ofNat n ≠ '%' := by
    decide +kernel
  have hb := hall b.toNat b.toNat_lt
  rw [UInt8.ofNat_toNat] at hb
  exact hb h

theorem isFormChar_of_mem_formByte {b : UInt8} {c : Char} (h : c ∈ formByte b) : IsFormChar c := by
  unfold formByte at h
  split at h
  · rename_i hplain
    obtain rfl := List.mem_singleton.1 h
    simp only [isFormPlain, Bool.or_eq_true, beq_iff_eq] at hplain
    rcases hplain with (((hletter | hmark) | hmark) | hmark) | hmark
    · exact .inl hletter
    all_goals
      rw [hmark]
      decide
  · split at h
    · obtain rfl := List.mem_singleton.1 h
      decide
    · have hb := b.toNat_lt
      simp only [List.mem_cons, List.not_mem_nil, or_false] at h
      rcases h with rfl | rfl | rfl
      · decide
      · exact .inl (isAlphanum_hexDigitUpper (by omega))
      · exact .inl (isAlphanum_hexDigitUpper (by omega))

theorem isFormChar_of_mem_formEncoded {s : String} {c : Char} (h : c ∈ (formEncoded s).toList) : IsFormChar c := by
  rw [formEncoded, String.toList_ofList] at h
  obtain ⟨b, -, hb⟩ := List.mem_flatMap.1 h
  exact isFormChar_of_mem_formByte hb

/-! ### Encoded texts -/

private theorem formBytes_plain {c : Char} (hplus : c ≠ '+') (hpercent : c ≠ '%') (rest : List Char) :
    formBytes (c :: rest) = String.utf8EncodeChar c ++ formBytes rest := by
  rw [formBytes]
  · exact fun he => hplus he
  · exact fun _ _ _ he _ => hpercent he

/-- A written byte is read as itself, and then the text goes on. -/
theorem formBytes_formByte (b : UInt8) (rest : List Char) : formBytes (formByte b ++ rest) = b :: formBytes rest := by
  unfold formByte
  split
  · rename_i hplain
    obtain ⟨hbyte, hplus, hpercent⟩ := plain_char hplain
    rw [List.singleton_append, formBytes_plain hplus hpercent, hbyte, List.singleton_append]
  · split
    · rename_i hspace
      subst hspace
      rw [List.singleton_append, formBytes]
    · have hb := b.toNat_lt
      have hvalue : UInt8.ofNat (16 * (b.toNat / 16) + b.toNat % 16) = b := by
        rw [Nat.div_add_mod, UInt8.ofNat_toNat]
      show formBytes ('%' :: hexDigitUpper (b.toNat / 16) :: hexDigitUpper (b.toNat % 16) :: rest) = _
      rw [formBytes, hexValue?_hexDigitUpper (by omega), hexValue?_hexDigitUpper (by omega)]
      exact congrArg (· :: formBytes rest) hvalue

/-- An encoded text stands for the bytes of the text. -/
theorem formBytes_formEncoded (s : String) : formBytes (formEncoded s).toList = utf8 s := by
  have hbytes : ∀ bytes : List UInt8, formBytes (bytes.flatMap formByte) = bytes := by
    intro bytes
    induction bytes with
    | nil => rfl
    | cons b bytes ih => rw [List.flatMap_cons, formBytes_formByte, ih]
  unfold formEncoded
  rw [String.toList_ofList, hbytes]
  rfl

/-- A text that was encoded is decoded as itself. -/
theorem formDecoded?_formEncoded (s : String) : formDecoded? (formEncoded s) = some s := by
  unfold formDecoded?
  rw [formBytes_formEncoded]
  simp [utf8, String.fromUTF8?, String.fromUTF8, s.isValidUTF8]

/-! ### Pairs -/

/-- A name and a value, encoded, with an equals sign between them. -/
def formPair (name value : String) : String :=
  formEncoded name ++ "=" ++ formEncoded value

theorem toList_formPair (name value : String) :
    (formPair name value).toList = (formEncoded name).toList ++ '=' :: (formEncoded value).toList := by
  simp [formPair]

/-- The equals sign of a pair is the first one in it. -/
private theorem sides_formPair (name value : String) :
    (formPair name value).toList.takeWhile (· != '=') = (formEncoded name).toList ∧
      ((formPair name value).toList.dropWhile (· != '=')).drop 1 = (formEncoded value).toList := by
  have hname : ∀ c ∈ (formEncoded name).toList, (c != '=') = true := by
    intro c hc
    refine bne_iff_ne.2 fun he => not_isFormChar_equals ?_
    exact he ▸ isFormChar_of_mem_formEncoded hc
  constructor
  · rw [toList_formPair, List.takeWhile_append_of_pos hname, List.takeWhile_cons_of_neg (by simp), List.append_nil]
  · rw [toList_formPair, List.dropWhile_append_of_pos hname, List.dropWhile_cons_of_neg (by simp),
      List.drop_succ_cons, List.drop_zero]

theorem formPair?_formPair (name value : String) :
    formPair? (formPair name value).toList = some (name, value) := by
  obtain ⟨hname, hvalue⟩ := sides_formPair name value
  unfold formPair?
  rw [hname, hvalue, String.ofList_toList, String.ofList_toList, formDecoded?_formEncoded, formDecoded?_formEncoded]
  rfl

theorem formField_formPair (name value : String) :
    formField (formPair name value).toList = (utf8 name, utf8 value) := by
  obtain ⟨hname, hvalue⟩ := sides_formPair name value
  unfold formField
  rw [hname, hvalue, formBytes_formEncoded, formBytes_formEncoded]

/-- A pair is one piece of a query. -/
theorem formPieces_formPair (name value : String) :
    formPieces (formPair name value).toList = [(formPair name value).toList] := by
  have hone : (formPair name value).toList.splitOn '&' = [(formPair name value).toList] := by
    refine List.splitOnP_eq_singleton fun c hc => ?_
    rw [beq_eq_false_iff_ne]
    rintro rfl
    rw [toList_formPair, List.mem_append, List.mem_cons] at hc
    rcases hc with hc | hc | hc
    · exact not_isFormChar_amp (isFormChar_of_mem_formEncoded hc)
    · exact absurd hc (by decide)
    · exact not_isFormChar_amp (isFormChar_of_mem_formEncoded hc)
  unfold formPieces
  rw [hone, toList_formPair]
  simp

/-- A pair at the end of a query is one more piece. -/
theorem formPieces_append (query : List Char) (name value : String) :
    formPieces (query ++ '&' :: (formPair name value).toList) =
      formPieces query ++ [(formPair name value).toList] := by
  have hsplit : (query ++ '&' :: (formPair name value).toList).splitOn '&' =
      query.splitOn '&' ++ (formPair name value).toList.splitOn '&' :=
    List.splitOnP_append_cons _ _ (beq_self_eq_true '&')
  rw [← formPieces_formPair]
  unfold formPieces
  rw [hsplit, List.filter_append]

end PageBindings.Text
