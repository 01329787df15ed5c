import Mathlib.Data.List.TakeWhile
import PageBindings.Proofs.Markup.Entities
import PageBindings.Proofs.Text.FormEncoding

/-!
# Reading markup by its bytes

The bytes of a markup text can be read without regard to where its characters begin: the reader keeps a position,
steps over bytes one by one, and decodes slices between two positions (`Bytes.tokens`).  Three things could go wrong
in this (`Bytes.Fault`), and none of them ever does, whatever the markup is: no slice reaches outside the text,
although a position may, no slice cuts a character in two, and there is an end.  What is read are the tokens of the
text (`tokens_utf8`).
-/

namespace PageBindings.Markup

namespace Bytes

/-- What could go wrong. -/
inductive Fault where
  /-- A slice that does not lie within the text. -/
  | outside (start stop : Nat)
  /-- A slice that is not the encoding of a text. -/
  | torn (start stop : Nat)
  /-- More steps than were allowed. -/
  | endless
deriving DecidableEq, Repr

variable (bytes : List UInt8)

/-- The byte at a position, as the character of the same number. -/
def peek? (position : Nat) : Option Char :=
  bytes[position]?.map Char.ofUInt8

/-- The first position whose byte is not as asked for. -/
def advance (p : Char → Bool) (position : Nat) : Nat :=
  if h : position < bytes.length then
    if p (Char.ofUInt8 bytes[position]) then advance p (position + 1) else position
  else position
termination_by bytes.length - position

/-- The position after ASCII blanks. -/
def skipBlanks (position : Nat) : Nat :=
  advance bytes Text.isAsciiBlank position

/-- The text between two positions. -/
def slice (start stop : Nat) : Except Fault (List Char) :=
  if start ≤ stop ∧ stop ≤ bytes.length then
    match ((bytes.drop start).take (stop - start)).toByteArray.utf8Decode? with
    | some cs => .ok cs.toList
    | none => .error (.torn start stop)
  else .error (.outside start stop)

/-- The text of the bytes that are as asked for, and the position after them. -/
def take (p : Char → Bool) (position : Nat) : Except Fault (List Char × Nat) := do
  let stop := advance bytes p position
  let cs ← slice bytes position stop
  return (cs, stop)

/-- A value in quotes, after the first one; the last one is passed over even if it is missing. -/
def readQuoted (quote : Char) (position : Nat) : Except Fault (String × Nat) := do
  let (cs, stop) ← take bytes (· != quote) position
  return (String.ofList (replaceEach entityTable cs), stop + 1)

/-- The value of an attribute, after its equals sign and blanks. -/
def readValue (position : Nat) : Except Fault (String × Nat) :=
  if peek? bytes position = some '"' then readQuoted bytes '"' (position + 1)
  else if peek? bytes position = some '\'' then readQuoted bytes '\'' (position + 1)
  else do
    let (cs, stop) ← take bytes isBareChar position
    return (String.ofList cs, stop)

/-- An attribute. -/
def readAttribute (position : Nat) : Except Fault ((String × String) × Nat) := do
  let (name, stop) ← take bytes isAttributeChar position
  let next := skipBlanks bytes stop
  if peek? bytes next = some '=' then
    let (value, stop) ← readValue bytes (skipBlanks bytes (next + 1))
    return ((lowerCase name, value), stop)
  else return ((lowerCase name, ""), next)

/-- The attributes of a tag, whether it closes itself, and the position after it. -/
def readAttributes : Nat → Nat → Except Fault (List (String × String) × Bool × Nat)
  | 0, _ => .error .endless
  | fuel + 1, position =>
    let position := skipBlanks bytes position
    if peek? bytes position = none then .ok ([], false, position)
    else if peek? bytes position = some '>' then .ok ([], false, position + 1)
    else if peek? bytes position = some '/' then do
      let (attributes, _, stop) ← readAttributes fuel (position + 1)
      return (attributes, true, stop)
    else do
      let (first, next) ← readAttribute bytes position
      let (attributes, selfClosing, stop) ← readAttributes fuel next
      return (first :: attributes, selfClosing, stop)

/-- The rest of a closing tag. -/
def readClosing (position : Nat) : Except Fault (Token × Nat) := do
  let (cs, stop) ← take bytes (· != '>') position
  return (.closing (lowerCase (Text.trimmed cs)), stop + 1)

/-- The rest of an opening tag. -/
def readOpening (fuel position : Nat) : Except Fault (Token × Nat) := do
  let (tag, next) ← take bytes isTagChar position
  let (attributes, selfClosing, stop) ← readAttributes bytes fuel next
  return (.opening (lowerCase tag) attributes selfClosing, stop)

/-- The text up to the next angle bracket. -/
def readText (position : Nat) : Except Fault (Token × Nat) := do
  let (cs, stop) ← take bytes (· != '<') position
  return (.text (String.ofList (replaceEach entityTable cs)), stop)

/-- The token at a position. -/
def readToken (fuel position : Nat) : Except Fault (Token × Nat) :=
  if peek? bytes position = some '<' then
    if peek? bytes (position + 1) = some '/' then readClosing bytes (position + 2)
    else readOpening bytes fuel (position + 1)
  else readText bytes position

/-- The tokens from a position on; `fuel` bounds their number, and the attributes of each. -/
def readTokens (limit : Nat) : Nat → Nat → Except Fault (List Token)
  | 0, _ => .error .endless
  | fuel + 1, position =>
    if peek? bytes position = none then .ok []
    else do
      let (token, next) ← readToken bytes limit position
      let tokens ← readTokens limit fuel next
      return token :: tokens

/-- The tokens of the bytes. -/
def tokens (fuel : Nat) : Except Fault (List Token) :=
  readTokens bytes fuel fuel 0

end Bytes

/-! ### Characters and their bytes -/

/-- The byte of an ASCII character is its number; all other bytes are beyond these. -/
theorem ofUInt8_of_mem_utf8EncodeChar {c : Char} {b : UInt8} (h : b ∈ String.utf8EncodeChar c) :
    Char.ofUInt8 b = c ∨ 128 ≤ (Char.ofUInt8 b).toNat ∧ 128 ≤ c.toNat := by
  have hnat : (Char.ofUInt8 b).toNat = b.toNat := rfl
  unfold String.utf8EncodeChar at h
  dsimp only at h
  split at h
  · rename_i hc
    left
    rw [List.mem_singleton] at h
    apply Char.toNat_inj.1
    rw [hnat, h, UInt8.toNat_ofNat']
    exact Nat.mod_eq_of_lt (by omega)
  · rename_i hc
    right
    rw [hnat]
    have hc' : 128 ≤ c.toNat := by
      unfold Char.toNat
      omega
    refine ⟨?_, hc'⟩
    -- the first byte of a longer encoding begins with two ones, the others with a one
    split at h
    · simp only [List.mem_cons, List.not_mem_nil, or_false] at h
      rcases h with rfl | rfl <;> rw [UInt8.toNat_ofNat'] <;> omega
    · split at h
      · simp only [List.mem_cons, List.not_mem_nil, or_false] at h
        rcases h with rfl | rfl | rfl <;> rw [UInt8.toNat_ofNat'] <;> omega
      · simp only [List.mem_cons, List.not_mem_nil, or_false] at h
        rcases h with rfl | rfl | rfl | rfl <;> rw [UInt8.toNat_ofNat'] <;> omega

variable {p q : Char → Bool}

/-- The characters beyond ASCII are all taken or all passed by. -/
def Uniform (p : Char → Bool) : Prop :=
  ∃ taken, ∀ c : Char, 128 ≤ c.toNat → p c = taken

theorem Uniform.apply_ofUInt8 (hp : Uniform p) {c : Char} {b : UInt8}
    (h : b ∈ String.utf8EncodeChar c) : p (Char.ofUInt8 b) = p c := by
  obtain ⟨taken, htaken⟩ := hp
  rcases ofUInt8_of_mem_utf8EncodeChar h with heq | ⟨hb, hc⟩
  · rw [heq]
  · rw [htaken _ hb, htaken c hc]

theorem uniform_beq (k : Char) (hk : k.toNat < 128) : Uniform (· == k) := by
  refine ⟨false, fun c hc => beq_false_of_ne ?_⟩
  rintro rfl
  omega

theorem Uniform.not (hp : Uniform p) : Uniform fun c => !p c := by
  obtain ⟨taken, htaken⟩ := hp
  exact ⟨!taken, fun c hc => congrArg Bool.not (htaken c hc)⟩

theorem Uniform.or (hp : Uniform p) (hq : Uniform q) : Uniform fun c => p c || q c := by
  obtain ⟨taken, htaken⟩ := hp
  obtain ⟨taken', htaken'⟩ := hq
  exact ⟨taken || taken', fun c hc => by simp only [htaken c hc, htaken' c hc]⟩

theorem Uniform.and (hp : Uniform p) (hq : Uniform q) : Uniform fun c => p c && q c := by
  obtain ⟨taken, htaken⟩ := hp
  obtain ⟨taken', htaken'⟩ := hq
  exact ⟨taken && taken', fun c hc => by simp only [htaken c hc, htaken' c hc]⟩

theorem uniform_bne (k : Char) (hk : k.toNat < 128) : Uniform (· != k) :=
  (uniform_beq k hk).not

theorem uniform_isAsciiBlank : Uniform Text.isAsciiBlank :=
  ((((uniform_beq ' ' (by decide)).or (uniform_beq '\t' (by decide))).or (uniform_beq '\n' (by decide))).or
    (uniform_beq '\x0c' (by decide))).or (uniform_beq '\r' (by decide))

theorem uniform_isTagChar : Uniform isTagChar := by
  refine Uniform.or ⟨false, fun c hc => ?_⟩ (uniform_beq '-' (by decide))
  unfold Char.isAlphanum Char.isAlpha Char.isUpper Char.isLower Char.isDigit
  simp [UInt32.le_iff_toNat_le]
  omega

theorem uniform_isAttributeChar : Uniform isAttributeChar :=
  ((uniform_isAsciiBlank.not.and (uniform_bne '=' (by decide))).and (uniform_bne '>' (by decide))).and
    (uniform_bne '/' (by decide))

theorem uniform_isBareChar : Uniform isBareChar :=
  uniform_isAsciiBlank.not.and (uniform_bne '>' (by decide))

/-! ### Where a reader stands -/

namespace Bytes

variable {bytes : List UInt8} {position fuel limit : Nat} {cs rest : List Char} {c k : Char}

/-- What is left of the text at a position. -/
def At (bytes : List UInt8) (position : Nat) (cs : List Char) : Prop :=
  bytes.drop position = cs.flatMap String.utf8EncodeChar

theorem at_utf8 (text : String) : At (Text.utf8 text) 0 text.toList := by
  have hbytes : (text.toList.flatMap String.utf8EncodeChar).toByteArray = text.toByteArray := String.utf8Encode_toList
  have hdata : (text.toList.flatMap String.utf8EncodeChar).toByteArray.data.toList =
      text.toList.flatMap String.utf8EncodeChar := List.toList_data_toByteArray
  unfold At Text.utf8
  rw [List.drop_zero, ← hdata, hbytes]
  rfl

theorem At.lt_length (h : At bytes position (c :: cs)) : position < bytes.length := by
  refine Nat.lt_of_not_le fun hge => ?_
  unfold At at h
  rw [List.drop_eq_nil_of_le hge, List.flatMap_cons] at h
  exact String.utf8EncodeChar_ne_nil (List.append_eq_nil_iff.1 h.symm).1

/-- The byte at a position is the first one of the next character. -/
private theorem At.exists_peek? (h : At bytes position (c :: cs)) :
    ∃ b ∈ String.utf8EncodeChar c, peek? bytes position = some (Char.ofUInt8 b) := by
  unfold At at h
  cases hc : String.utf8EncodeChar c with
  | nil => exact absurd hc String.utf8EncodeChar_ne_nil
  | cons b more =>
    refine ⟨b, List.mem_cons_self, ?_⟩
    unfold peek?
    rw [← List.head?_drop, h, List.flatMap_cons, hc]
    rfl

theorem At.peek?_eq_none_iff (h : At bytes position cs) : peek? bytes position = none ↔ cs = [] := by
  cases cs with
  | nil =>
    unfold At at h
    unfold peek?
    rw [← List.head?_drop, h]
    simp
  | cons c cs =>
    obtain ⟨b, -, hpeek⟩ := h.exists_peek?
    simp [hpeek]

theorem At.peek?_eq_some_iff (h : At bytes position cs) (hk : k.toNat < 128) :
    peek? bytes position = some k ↔ ∃ rest, cs = k :: rest := by
  cases cs with
  | nil => simp [h.peek?_eq_none_iff.2 rfl]
  | cons c cs =>
    obtain ⟨b, hb, hpeek⟩ := h.exists_peek?
    rw [hpeek]
    simp only [Option.some.injEq, List.cons.injEq, exists_and_left, exists_eq', and_true]
    rcases ofUInt8_of_mem_utf8EncodeChar hb with heq | ⟨hbyte, hc⟩
    · rw [heq]
    · constructor <;> rintro rfl <;> omega

/-- An ASCII character is one byte. -/
theorem At.next (h : At bytes position (k :: rest)) (hk : k.toNat < 128) : At bytes (position + 1) rest := by
  have hbyte : ∃ b, String.utf8EncodeChar k = [b] := by
    unfold String.utf8EncodeChar
    dsimp only
    rw [if_pos]
    · exact ⟨_, rfl⟩
    · show k.toNat ≤ 127
      omega
  obtain ⟨b, hb⟩ := hbyte
  unfold At at h ⊢
  rw [← List.drop_drop, h, List.flatMap_cons, hb]
  rfl

theorem At.past (h : At bytes position []) : At bytes (position + 1) [] := by
  unfold At at h ⊢
  rw [← List.drop_drop, h]
  rfl

/-- Bytes are taken or passed by as the characters are. -/
private theorem takeWhile_utf8EncodeChar (hp : Uniform p) (cs : List Char) :
    (cs.flatMap String.utf8EncodeChar).takeWhile (fun b => p (Char.ofUInt8 b)) =
      (cs.takeWhile p).flatMap String.utf8EncodeChar := by
  induction cs with
  | nil => rfl
  | cons c cs ih =>
    cases hc : p c with
    | true =>
      have hall : ∀ b ∈ String.utf8EncodeChar c, p (Char.ofUInt8 b) = true :=
        fun b hb => by rw [hp.apply_ofUInt8 hb, hc]
      rw [List.takeWhile_cons_of_pos hc, List.flatMap_cons, List.flatMap_cons, List.takeWhile_append_of_pos hall, ih]
    | false =>
      rw [List.takeWhile_cons_of_neg (by simp [hc]), List.flatMap_cons]
      cases hbytes : String.utf8EncodeChar c with
      | nil => exact absurd hbytes String.utf8EncodeChar_ne_nil
      | cons b more =>
        have hb : p (Char.ofUInt8 b) = false := by rw [hp.apply_ofUInt8 (hbytes ▸ List.mem_cons_self), hc]
        rw [List.cons_append, List.takeWhile_cons_of_neg (by simp [hb])]
        rfl

theorem advance_eq (p : Char → Bool) (position : Nat) : advance bytes p position =
    position + ((bytes.drop position).takeWhile fun b => p (Char.ofUInt8 b)).length := by
  fun_induction advance bytes p position with
  | case1 position hlt hp ih =>
    have hcons : ∀ more : List UInt8, (bytes[position] :: more).takeWhile (fun b => p (Char.ofUInt8 b)) =
        bytes[position] :: more.takeWhile fun b => p (Char.ofUInt8 b) := fun more => List.takeWhile_cons_of_pos hp
    rw [ih, List.drop_eq_getElem_cons hlt, hcons, List.length_cons]
    omega
  | case2 position hlt hp =>
    have hcons : ∀ more : List UInt8, (bytes[position] :: more).takeWhile (fun b => p (Char.ofUInt8 b)) = [] :=
      fun more => List.takeWhile_cons_of_neg hp
    rw [List.drop_eq_getElem_cons hlt, hcons]
    rfl
  | case3 position hge =>
    rw [List.drop_eq_nil_of_le (by omega)]
    rfl

private theorem At.advance_eq (h : At bytes position cs) (hp : Uniform p) :
    advance bytes p position = position + ((cs.takeWhile p).flatMap String.utf8EncodeChar).length := by
  unfold At at h
  rw [Bytes.advance_eq, h, takeWhile_utf8EncodeChar hp]

private theorem flatMap_split (p : Char → Bool) (cs : List Char) : cs.flatMap String.utf8EncodeChar =
    (cs.takeWhile p).flatMap String.utf8EncodeChar ++ (cs.dropWhile p).flatMap String.utf8EncodeChar := by
  rw [← List.flatMap_append, List.takeWhile_append_dropWhile]

theorem At.advance (h : At bytes position cs) (hp : Uniform p) :
    At bytes (advance bytes p position) (cs.dropWhile p) := by
  rw [h.advance_eq hp]
  unfold At at h ⊢
  rw [← List.drop_drop, h, flatMap_split p cs, List.drop_left]

/-- Stepping over bytes of the text does not leave the text. -/
theorem advance_le (p : Char → Bool) (h : position ≤ bytes.length) :
    Bytes.advance bytes p position ≤ bytes.length := by
  have hprefix : (bytes.drop position).takeWhile (fun b => p (Char.ofUInt8 b)) <+: bytes.drop position :=
    List.takeWhile_prefix _
  have hlength := hprefix.length_le
  rw [advance_eq]
  rw [List.length_drop] at hlength
  omega

/-- The reader gives a value, and stands where `rest` is left. -/
def Gives {α : Type} (bytes : List UInt8) (result : Except Fault (α × Nat)) (value : α) (rest : List Char) : Prop :=
  ∃ stop, result = .ok (value, stop) ∧ At bytes stop rest

theorem Gives.bind {α β : Type} {result : Except Fault (α × Nat)} {value : α} {f : α × Nat → Except Fault (β × Nat)}
    {value' : β} {rest' : List Char} (h : Gives bytes result value rest)
    (hf : ∀ stop, At bytes stop rest → Gives bytes (f (value, stop)) value' rest') :
    Gives bytes (result >>= f) value' rest' := by
  obtain ⟨stop, rfl, hat⟩ := h
  exact hf stop hat

theorem At.gives {α : Type} (h : At bytes position rest) (value : α) :
    Gives bytes (pure (value, position)) value rest :=
  ⟨position, rfl, h⟩

/-- The text of the bytes that are taken. -/
theorem At.take (h : At bytes position cs) (hle : position ≤ bytes.length) (hp : Uniform p) :
    Gives bytes (take bytes p position) (cs.takeWhile p) (cs.dropWhile p) := by
  have hstop := advance_le p hle
  have hbytes : (bytes.drop position).take (Bytes.advance bytes p position - position) =
      (cs.takeWhile p).flatMap String.utf8EncodeChar := by
    rw [h.advance_eq hp, Nat.add_sub_cancel_left]
    unfold At at h
    rw [h, flatMap_split p cs, List.take_left]
  have hdecode : ((cs.takeWhile p).flatMap String.utf8EncodeChar).toByteArray.utf8Decode? =
      some (cs.takeWhile p).toArray := List.utf8Decode?_utf8Encode
  have hslice : slice bytes position (Bytes.advance bytes p position) = .ok (cs.takeWhile p) := by
    unfold slice
    rw [if_pos ⟨by rw [h.advance_eq hp]; omega, hstop⟩, hbytes, hdecode]
  unfold Bytes.take
  dsimp only
  rw [hslice]
  exact (h.advance hp).gives _

/-! ### Attributes -/

/-- The end of a run is passed over, also where the text ends instead. -/
private theorem At.drop_one (h : At bytes position (cs.dropWhile (· != k))) (hk : k.toNat < 128) :
    At bytes (position + 1) ((cs.dropWhile (· != k)).drop 1) := by
  have hhead := List.head?_dropWhile_not (· != k) cs
  cases hcs : cs.dropWhile (· != k) with
  | nil =>
    rw [hcs] at h
    exact h.past
  | cons c rest =>
    rw [hcs] at h hhead
    obtain rfl : c = k := by simpa using hhead
    exact h.next hk

private theorem readQuoted_at (h : At bytes position cs) (hle : position ≤ bytes.length) (hk : k.toNat < 128) :
    Gives bytes (readQuoted bytes k position) (String.ofList (decodeEntities (cs.takeWhile (· != k))))
      ((cs.dropWhile (· != k)).drop 1) := by
  rw [decodeEntities_eq_replaceEach]
  exact (h.take hle (uniform_bne k hk)).bind fun stop hat => (hat.drop_one hk).gives _

theorem readValue_at (h : At bytes position cs) (hle : position ≤ bytes.length) :
    Gives bytes (readValue bytes position) (Markup.readValue cs).1 (Markup.readValue cs).2 := by
  have hdouble : peek? bytes position = some '"' ↔ ∃ rest, cs = '"' :: rest := h.peek?_eq_some_iff (by decide)
  have hsingle : peek? bytes position = some '\'' ↔ ∃ rest, cs = '\'' :: rest := h.peek?_eq_some_iff (by decide)
  unfold readValue
  fun_cases Markup.readValue cs with
  | case1 rest =>
    rw [if_pos (hdouble.2 ⟨rest, rfl⟩)]
    exact readQuoted_at (h.next (by decide)) h.lt_length (by decide)
  | case2 rest =>
    rw [if_neg (by simp [hdouble]), if_pos (hsingle.2 ⟨rest, rfl⟩)]
    exact readQuoted_at (h.next (by decide)) h.lt_length (by decide)
  | case3 cs hdoubleNot hsingleNot =>
    rw [if_neg fun hpeek => (hdouble.1 hpeek).elim hdoubleNot, if_neg fun hpeek => (hsingle.1 hpeek).elim hsingleNot]
    exact (h.take hle uniform_isBareChar).bind fun stop hat => hat.gives _

theorem skipBlanks_at (h : At bytes position cs) : At bytes (skipBlanks bytes position) (Markup.skipBlanks cs) :=
  h.advance uniform_isAsciiBlank

theorem readAttribute_at (h : At bytes position cs) (hle : position ≤ bytes.length) :
    Gives bytes (readAttribute bytes position) (Markup.readAttribute cs).1 (Markup.readAttribute cs).2 := by
  unfold readAttribute Markup.readAttribute
  dsimp only
  refine (h.take hle uniform_isAttributeChar).bind fun stop hat => ?_
  have hnext := skipBlanks_at hat
  have hequals : peek? bytes (skipBlanks bytes stop) = some '=' ↔
      ∃ rest, Markup.skipBlanks (cs.dropWhile isAttributeChar) = '=' :: rest := hnext.peek?_eq_some_iff (by decide)
  dsimp only
  split
  · rename_i heq
    obtain ⟨rest, hrest⟩ := hequals.1 heq
    rw [hrest] at hnext ⊢
    have hvalue := skipBlanks_at (hnext.next (by decide))
    exact (readValue_at hvalue (advance_le _ hnext.lt_length)).bind fun stop hat => hat.gives _
  · rename_i hne
    split
    · rename_i rest hrest
      exact absurd (hequals.2 ⟨rest, hrest⟩) hne
    · exact hnext.gives _

end Bytes

/-! ### How much is read -/

section Progress

variable {cs rest : List Char} {c : Char} {fuel : Nat}

theorem length_readValue_le (cs : List Char) : (readValue cs).2.length ≤ cs.length := by
  fun_cases readValue cs with
  | case1 rest =>
    have hle := List.length_dropWhile_le (· != '"') rest
    simp only [List.length_drop, List.length_cons]
    omega
  | case2 rest =>
    have hle := List.length_dropWhile_le (· != '\'') rest
    simp only [List.length_drop, List.length_cons]
    omega
  | case3 cs _ _ => exact List.length_dropWhile_le isBareChar cs

/-- An attribute takes a character at least: its name does, or its equals sign. -/
theorem length_readAttribute_lt (hblank : Text.isAsciiBlank c = false) (hend : c ≠ '>') (hslash : c ≠ '/') :
    (readAttribute (c :: rest)).2.length < (c :: rest).length := by
  have hvalue : ∀ rest : List Char, (readValue (skipBlanks rest)).2.length ≤ rest.length := fun rest =>
    Nat.le_trans (length_readValue_le _) (List.length_dropWhile_le Text.isAsciiBlank rest)
  by_cases hequals : c = '='
  · subst hequals
    have hname : ('=' :: rest).dropWhile isAttributeChar = '=' :: rest := List.dropWhile_cons_of_neg (by decide)
    have hskip : skipBlanks ('=' :: rest) = '=' :: rest := List.dropWhile_cons_of_neg (by decide)
    have hle := hvalue rest
    unfold readAttribute
    simp only [hname, hskip, List.length_cons]
    omega
  · have hname : isAttributeChar c = true := by simp [isAttributeChar, hblank, hend, hslash, hequals]
    have hle : (skipBlanks ((c :: rest).dropWhile isAttributeChar)).length ≤ rest.length := by
      rw [List.dropWhile_cons_of_pos hname]
      exact Nat.le_trans (List.length_dropWhile_le _ _) (List.length_dropWhile_le isAttributeChar rest)
    unfold readAttribute
    dsimp only
    split
    · rename_i more hmore
      have hmoreLe := hvalue more
      rw [hmore, List.length_cons] at hle
      simp only [List.length_cons]
      omega
    · simp only [List.length_cons]
      omega

/-- After blanks there is none. -/
theorem isAsciiBlank_of_skipBlanks (h : skipBlanks cs = c :: rest) : Text.isAsciiBlank c = false := by
  have hhead := List.head?_dropWhile_not Text.isAsciiBlank cs
  rw [show cs.dropWhile Text.isAsciiBlank = c :: rest from h] at hhead
  simpa using hhead

theorem length_readAttributes_le (fuel : Nat) (cs : List Char) : (readAttributes fuel cs).2.2.length ≤ cs.length := by
  induction fuel generalizing cs with
  | zero => exact Nat.le_refl _
  | succ fuel ih =>
    have hskip : (skipBlanks cs).length ≤ cs.length := List.length_dropWhile_le Text.isAsciiBlank cs
    unfold readAttributes
    split
    · exact Nat.zero_le _
    · rename_i rest hrest
      rw [hrest, List.length_cons] at hskip
      dsimp only
      omega
    · rename_i rest hrest
      have hle := ih rest
      rw [hrest, List.length_cons] at hskip
      show (readAttributes fuel rest).2.2.length ≤ cs.length
      omega
    · rename_i c rest hend hslash hrest
      have hlt : (readAttribute (c :: rest)).2.length < (c :: rest).length :=
        length_readAttribute_lt (isAsciiBlank_of_skipBlanks hrest) hend hslash
      have hle := ih (readAttribute (c :: rest)).2
      rw [hrest] at hskip
      show (readAttributes fuel (readAttribute (c :: rest)).2).2.2.length ≤ cs.length
      omega

/-- A text takes a character at least, since it does not begin with an angle bracket. -/
private theorem length_readText_lt (hc : c ≠ '<') : (readText (c :: rest)).2.length < (c :: rest).length := by
  have hle := List.length_dropWhile_le (· != '<') rest
  have hdrop : (c :: rest).dropWhile (· != '<') = rest.dropWhile (· != '<') :=
    List.dropWhile_cons_of_pos (bne_iff_ne.2 hc)
  unfold readText
  rw [hdrop, List.length_cons]
  dsimp only
  omega

theorem length_readToken_lt (c : Char) (cs : List Char) : (readToken (c :: cs)).2.length < (c :: cs).length := by
  unfold readToken
  split
  · rename_i rest heq
    have hle := List.length_dropWhile_le (· != '>') rest
    rw [heq]
    simp only [readClosing, List.length_drop, List.length_cons]
    omega
  · rename_i rest _ heq
    have hle := length_readAttributes_le ((rest.dropWhile isTagChar).length + 1) (rest.dropWhile isTagChar)
    have htag := List.length_dropWhile_le isTagChar rest
    rw [heq, List.length_cons]
    show (readAttributes ((rest.dropWhile isTagChar).length + 1) (rest.dropWhile isTagChar)).2.2.length < _
    omega
  · rename_i hbracket
    exact length_readText_lt fun hc => hbracket cs (by rw [hc])

end Progress

namespace Bytes

variable {bytes : List UInt8} {position fuel fuel' limit : Nat} {cs rest : List Char}

/-! ### Tags and tokens -/

theorem readAttributes_at (h : At bytes position cs) (hfuel : cs.length < fuel) (hfuel' : cs.length < fuel') :
    ∃ stop, readAttributes bytes fuel position =
        .ok ((Markup.readAttributes fuel' cs).1, (Markup.readAttributes fuel' cs).2.1, stop) ∧
      At bytes stop (Markup.readAttributes fuel' cs).2.2 := by
  induction fuel generalizing fuel' cs position with
  | zero => omega
  | succ fuel ih =>
    obtain ⟨fuel', rfl⟩ : ∃ more, fuel' = more + 1 := ⟨fuel' - 1, by omega⟩
    have hskip : (Markup.skipBlanks cs).length ≤ cs.length := List.length_dropWhile_le Text.isAsciiBlank cs
    have hnext := skipBlanks_at h
    have hnone := hnext.peek?_eq_none_iff
    have hend : peek? bytes (skipBlanks bytes position) = some '>' ↔ ∃ rest, Markup.skipBlanks cs = '>' :: rest :=
      hnext.peek?_eq_some_iff (by decide)
    have hslash : peek? bytes (skipBlanks bytes position) = some '/' ↔ ∃ rest, Markup.skipBlanks cs = '/' :: rest :=
      hnext.peek?_eq_some_iff (by decide)
    unfold Markup.readAttributes
    split
    · rename_i hcs
      rw [hcs] at hnext
      unfold readAttributes
      dsimp only
      rw [if_pos (hnone.2 hcs)]
      exact ⟨_, rfl, hnext⟩
    · rename_i rest hrest
      rw [hrest] at hnext
      unfold readAttributes
      dsimp only
      rw [if_neg (by simp [hnone, hrest]), if_pos (hend.2 ⟨rest, hrest⟩)]
      exact ⟨_, rfl, hnext.next (by decide)⟩
    · rename_i rest hrest
      rw [hrest] at hnext hskip
      rw [List.length_cons] at hskip
      unfold readAttributes
      dsimp only
      rw [if_neg (by simp [hnone, hrest]), if_neg (by simp [hend, hrest]), if_pos (hslash.2 ⟨rest, hrest⟩)]
      have hin : rest.length < fuel := by omega
      have hin' : rest.length < fuel' := by omega
      obtain ⟨stop, hread, hat⟩ := ih (hnext.next (by decide)) hin hin'
      rw [hread]
      exact ⟨stop, rfl, hat⟩
    · rename_i c rest hendNot hslashNot hrest
      have hlt : (Markup.readAttribute (c :: rest)).2.length < (c :: rest).length :=
        length_readAttribute_lt (isAsciiBlank_of_skipBlanks hrest) hendNot hslashNot
      rw [hrest] at hnext hskip
      unfold readAttributes
      dsimp only
      rw [if_neg (by simp [hnone, hrest]), if_neg (by simpa [hend, hrest] using hendNot),
        if_neg (by simpa [hslash, hrest] using hslashNot)]
      obtain ⟨after, hfirst, hafter⟩ := readAttribute_at hnext (Nat.le_of_lt hnext.lt_length)
      have hin : (Markup.readAttribute (c :: rest)).2.length < fuel := by omega
      have hin' : (Markup.readAttribute (c :: rest)).2.length < fuel' := by omega
      obtain ⟨stop, hread, hat⟩ := ih hafter hin hin'
      rw [hfirst]
      dsimp only [bind, Except.bind]
      rw [hread]
      exact ⟨stop, rfl, hat⟩

theorem readToken_at {c : Char} (h : At bytes position (c :: cs)) (hlimit : (c :: cs).length < limit) :
    Gives bytes (readToken bytes limit position) (Markup.readToken (c :: cs)).1 (Markup.readToken (c :: cs)).2 := by
  have hopen : peek? bytes position = some '<' ↔ ∃ rest, c :: cs = '<' :: rest := h.peek?_eq_some_iff (by decide)
  unfold Markup.readToken
  split
  · rename_i rest hcs
    rw [hcs] at h
    have hnext : At bytes (position + 1) ('/' :: rest) := h.next (by decide)
    have hslash : peek? bytes (position + 1) = some '/' := (hnext.peek?_eq_some_iff (by decide)).2 ⟨rest, rfl⟩
    unfold readToken
    rw [if_pos (hopen.2 ⟨'/' :: rest, hcs⟩), if_pos hslash]
    refine ((hnext.next (by decide)).take hnext.lt_length (uniform_bne '>' (by decide))).bind fun stop hat => ?_
    exact (hat.drop_one (by decide)).gives _
  · rename_i rest hclosing hcs
    rw [hcs] at h hlimit
    have hnext : At bytes (position + 1) rest := h.next (by decide)
    have hslash : peek? bytes (position + 1) ≠ some '/' := by
      intro hpeek
      obtain ⟨more, rfl⟩ := (hnext.peek?_eq_some_iff (by decide)).1 hpeek
      exact hclosing more rfl
    unfold readToken
    rw [if_pos (hopen.2 ⟨rest, hcs⟩), if_neg hslash]
    refine (hnext.take h.lt_length uniform_isTagChar).bind fun next hat => ?_
    have htag := List.length_dropWhile_le isTagChar rest
    have hin : (rest.dropWhile isTagChar).length < limit := by
      rw [List.length_cons] at hlimit
      omega
    obtain ⟨stop, hread, hstop⟩ := readAttributes_at hat hin (Nat.lt_succ_self _)
    dsimp only
    rw [hread]
    exact hstop.gives _
  · rename_i hopenNot
    unfold readToken
    rw [if_neg fun hpeek => (hopen.1 hpeek).elim fun rest hrest => hopenNot rest hrest]
    unfold Markup.readText
    rw [decodeEntities_eq_replaceEach]
    exact (h.take (Nat.le_of_lt h.lt_length) (uniform_bne '<' (by decide))).bind fun stop hat => hat.gives _

theorem readTokens_at (h : At bytes position cs) (hlimit : cs.length < limit) (hfuel : cs.length < fuel)
    (hfuel' : cs.length ≤ fuel') : readTokens bytes limit fuel position = .ok (Markup.readTokens fuel' cs) := by
  induction fuel generalizing fuel' cs position with
  | zero => omega
  | succ fuel ih =>
    have hnone := h.peek?_eq_none_iff
    cases cs with
    | nil =>
      unfold readTokens
      rw [if_pos (hnone.2 rfl), Markup.readTokens]
    | cons c cs =>
      have hlt := length_readToken_lt c cs
      obtain ⟨fuel', rfl⟩ : ∃ more, fuel' = more + 1 := ⟨fuel' - 1, by rw [List.length_cons] at hfuel'; omega⟩
      obtain ⟨next, hread, hnext⟩ := readToken_at h hlimit
      have hfewer : (Markup.readToken (c :: cs)).2.length ≤ fuel' := by
        rw [List.length_cons] at hlt hfuel'
        omega
      have hrest := ih hnext (by omega) (by omega) hfewer
      unfold readTokens
      rw [if_neg (by simp [hnone]), hread]
      dsimp only [bind, Except.bind]
      rw [hrest]
      rfl

end Bytes

/-- Whatever the markup is, reading its bytes comes to an end without a fault, and gives its tokens. -/
theorem tokens_utf8 (markup : String) {fuel : Nat} (h : markup.toList.length < fuel) :
    Bytes.tokens (Text.utf8 markup) fuel = .ok (tokens markup) :=
  Bytes.readTokens_at (Bytes.at_utf8 markup) h h (Nat.le_refl _)

end PageBindings.Markup
