import PageBindings.Markup.Builder
import PageBindings.Proofs.Markup.Entities
import PageBindings.Proofs.Tree.Basic

/-!
# Writing elements as markup

`render` writes a tree of elements as markup: an opening tag with the attributes, the text directly in the element,
its children and a closing tag, with entities in texts and values.  The tokens of what is written are the tags and
texts of the elements (`tokens_markup`), if tags and names consist of characters for them (`isWritable`).
-/

namespace PageBindings.Markup

/-- What is written of an element, but for the elements in it. -/
structure Element where
  tag : String
  attributes : List (String × String) := []
  text : String := ""
deriving DecidableEq, Repr

/-! ### The written form -/

/-- An attribute in an opening tag. -/
def writtenAttribute (pair : String × String) : List Char :=
  ' ' :: (pair.1.toList ++ '=' :: '"' :: (escaped pair.2 ++ ['"']))

/-- The opening tag of an element. -/
def Element.startTag (e : Element) : List Char :=
  '<' :: (e.tag.toList ++ (e.attributes.flatMap writtenAttribute ++ ['>']))

/-- The closing tag of an element. -/
def Element.endTag (e : Element) : List Char :=
  '<' :: '/' :: (e.tag.toList ++ ['>'])

/-- An element with all that is in it; void elements have no content and no closing tag. -/
def render : Tree Element → List Char :=
  Tree.fold fun e parts =>
    e.startTag ++ if isVoid e.tag then [] else escaped e.text ++ (parts.flatten ++ e.endTag)

/-- The markup of elements, one after the other. -/
def markup (forest : List (Tree Element)) : String :=
  String.ofList (forest.flatMap render)

/-- The characters of tags, in lower case. -/
def isTagLetter (c : Char) : Bool :=
  c.isLower || c.isDigit || c == '-'

/-- The characters of attribute names, in lower case. -/
def isNameLetter (c : Char) : Bool :=
  isAttributeChar c && !c.isUpper

/-- Whether tag and attribute names can be written: they are not empty and consist of characters for them. -/
def Element.isWritable (e : Element) : Bool :=
  !e.tag.isEmpty && e.tag.toList.all isTagLetter &&
    e.attributes.all fun pair => !pair.1.isEmpty && pair.1.toList.all isNameLetter

/-- Whether all elements of a tree can be written, and void ones have no content. -/
def isWritable : Tree Element → Bool :=
  Tree.fold fun e parts => e.isWritable && (!isVoid e.tag || (e.text.isEmpty && parts.isEmpty)) && parts.all id

/-! ### The tokens of the written form -/

/-- The token of a text, if there is any. -/
def textTokens (text : String) : List Token :=
  if text.isEmpty then [] else [.text text]

/-- The tokens of an element with all that is in it. -/
def tokensOf : Tree Element → List Token :=
  Tree.fold fun e parts => .opening e.tag e.attributes false ::
    if isVoid e.tag then [] else textTokens e.text ++ (parts.flatten ++ [.closing e.tag])

variable {e : Element} {children forest : List (Tree Element)} {t : Tree Element} {cs cs' rest : List Char}
  {ts ts' : List Token}

theorem render_node (e : Element) (children : List (Tree Element)) :
    render (.node e children) =
      e.startTag ++ if isVoid e.tag then [] else escaped e.text ++ (children.flatMap render ++ e.endTag) := by
  unfold render
  rw [Tree.fold, Tree.foldAll_eq, List.flatMap_def]

theorem tokensOf_node (e : Element) (children : List (Tree Element)) :
    tokensOf (.node e children) = .opening e.tag e.attributes false ::
      if isVoid e.tag then [] else textTokens e.text ++ (children.flatMap tokensOf ++ [.closing e.tag]) := by
  unfold tokensOf
  rw [Tree.fold, Tree.foldAll_eq, List.flatMap_def]

theorem isWritable_node :
    isWritable (.node e children) = true ↔ e.isWritable = true ∧
      (isVoid e.tag = true → e.text = "" ∧ children = []) ∧ ∀ t ∈ children, isWritable t = true := by
  unfold isWritable
  rw [Tree.fold, Tree.foldAll_eq]
  cases isVoid e.tag with
  | true => simp [and_assoc]
  | false => simp

/-! ### Single tokens -/

/-- A run of characters of one class ends before the first one that is not of it. -/
private theorem sides_append_cons (p : Char → Bool) (c : Char) (rest : List Char) (hcs : ∀ x ∈ cs, p x = true)
    (hc : p c = false) : (cs ++ c :: rest).takeWhile p = cs ∧ (cs ++ c :: rest).dropWhile p = c :: rest := by
  constructor
  · rw [List.takeWhile_append_of_pos hcs, List.takeWhile_cons_of_neg (by simp [hc]), List.append_nil]
  · rw [List.dropWhile_append_of_pos hcs, List.dropWhile_cons_of_neg (by simp [hc])]

theorem skipBlanks_cons {c : Char} (h : Text.isAsciiBlank c = false) (cs : List Char) :
    skipBlanks (c :: cs) = c :: cs :=
  List.dropWhile_cons_of_neg (by simp [h])

theorem skipBlanks_blank (cs : List Char) : skipBlanks (' ' :: cs) = skipBlanks cs :=
  List.dropWhile_cons_of_pos (by decide)

theorem lowerCase_toList {text : String} (h : ∀ c ∈ text.toList, c.isUpper = false) :
    lowerCase text.toList = text := by
  have hlower : ∀ c ∈ text.toList, c.toLower = id c := by
    intro c hc
    unfold Char.toLower
    exact dif_neg (of_decide_eq_false (h c hc))
  unfold lowerCase
  rw [List.map_congr_left hlower, List.map_id, String.ofList_toList]

/-- What can be written of an element, in terms of its characters. -/
theorem Element.isWritable_iff : e.isWritable = true ↔
    (e.tag ≠ "" ∧ ∀ c ∈ e.tag.toList, isTagLetter c = true) ∧
      ∀ pair ∈ e.attributes, pair.1 ≠ "" ∧ ∀ c ∈ pair.1.toList, isNameLetter c = true := by
  unfold Element.isWritable
  simp [and_assoc]

theorem isTagChar_of_isTagLetter {c : Char} (h : isTagLetter c = true) : isTagChar c = true := by
  unfold isTagLetter at h
  unfold isTagChar Char.isAlphanum Char.isAlpha
  grind

/-- The characters of tags are no blanks, and nothing that has a meaning in markup. -/
theorem of_isTagLetter {c : Char} (h : isTagLetter c = true) :
    c.isUpper = false ∧ Text.isBlank c = false ∧ c ≠ '>' ∧ c ≠ '/' := by
  have hrange : c.toNat = 45 ∨ (48 ≤ c.toNat ∧ c.toNat ≤ 57) ∨ (97 ≤ c.toNat ∧ c.toNat ≤ 122) := by
    unfold isTagLetter Char.isLower Char.isDigit at h
    simp only [Bool.or_eq_true, Bool.and_eq_true, decide_eq_true_eq, beq_iff_eq] at h
    rcases h with (⟨h1, h2⟩ | ⟨h1, h2⟩) | rfl
    · exact .inr (.inr ⟨h1, h2⟩)
    · exact .inr (.inl ⟨h1, h2⟩)
    · exact .inl rfl
  refine ⟨?_, ?_, ?_, ?_⟩
  · unfold Char.isUpper
    refine decide_eq_false fun ⟨h1, h2⟩ => ?_
    have h1 : 65 ≤ c.toNat := h1
    have h2 : c.toNat ≤ 90 := h2
    omega
  · unfold Text.isBlank
    simp only [Bool.or_eq_false_iff, Bool.and_eq_false_iff, decide_eq_false_iff_not, beq_eq_false_iff_ne]
    omega
  · rintro rfl
    exact absurd hrange (by decide)
  · rintro rfl
    exact absurd hrange (by decide)

theorem readValue_written (value : String) (rest : List Char) :
    readValue ('"' :: (escaped value ++ '"' :: rest)) = (value, rest) := by
  obtain ⟨hvalue, hafter⟩ := sides_append_cons (· != '"') '"' rest
    (fun c hc => bne_iff_ne.2 (ne_of_mem_escaped value c hc).2) (by decide)
  rw [readValue, hvalue, hafter, decodeEntities_escaped, List.drop_succ_cons, List.drop_zero]

theorem readAttribute_written {pair : String × String} (hname : ∀ c ∈ pair.1.toList, isNameLetter c = true)
    (rest : List Char) :
    readAttribute (pair.1.toList ++ '=' :: '"' :: (escaped pair.2 ++ '"' :: rest)) = (pair, rest) := by
  have hchars : ∀ c ∈ pair.1.toList, isAttributeChar c = true ∧ c.isUpper = false := by
    intro c hc
    simpa [isNameLetter] using hname c hc
  obtain ⟨htake, hdrop⟩ := sides_append_cons isAttributeChar '=' ('"' :: (escaped pair.2 ++ '"' :: rest))
    (fun c hc => (hchars c hc).1) (by decide)
  unfold readAttribute
  rw [htake, hdrop, skipBlanks_cons (by decide), lowerCase_toList fun c hc => (hchars c hc).2]
  simp only [skipBlanks_cons (show Text.isAsciiBlank '"' = false by decide), readValue_written]

/-- A name begins with a character that begins an attribute. -/
private theorem exists_cons_of_name {name : String} (hne : name ≠ "")
    (hname : ∀ c ∈ name.toList, isNameLetter c = true) :
    ∃ c cs, name.toList = c :: cs ∧ Text.isAsciiBlank c = false ∧ c ≠ '>' ∧ c ≠ '/' := by
  cases hcs : name.toList with
  | nil => exact absurd (String.toList_eq_nil_iff.1 hcs) hne
  | cons c cs =>
    have hc := hname c (by simp [hcs])
    unfold isNameLetter isAttributeChar at hc
    simp only [Bool.and_eq_true, Bool.not_eq_true', bne_iff_ne] at hc
    exact ⟨c, cs, rfl, hc.1.1.1.1, hc.1.1.2, hc.1.2⟩

theorem writtenAttribute_append (pair : String × String) (rest : List Char) :
    writtenAttribute pair ++ rest = ' ' :: (pair.1.toList ++ '=' :: '"' :: (escaped pair.2 ++ '"' :: rest)) := by
  simp [writtenAttribute]

/-- A blank in front of each attribute, up to the end of the tag. -/
theorem readAttributes_written {attributes : List (String × String)} {fuel : Nat} (hfuel : attributes.length < fuel)
    (h : ∀ pair ∈ attributes, pair.1 ≠ "" ∧ ∀ c ∈ pair.1.toList, isNameLetter c = true) (rest : List Char) :
    readAttributes fuel (attributes.flatMap writtenAttribute ++ '>' :: rest) = (attributes, false, rest) := by
  induction attributes generalizing fuel with
  | nil =>
    cases fuel with
    | zero => exact absurd hfuel (Nat.not_lt_zero _)
    | succ fuel =>
      unfold readAttributes
      rw [List.flatMap_nil, List.nil_append, skipBlanks_cons (by decide)]
      rfl
  | cons pair more ih =>
    cases fuel with
    | zero => exact absurd hfuel (Nat.not_lt_zero _)
    | succ fuel =>
      rw [List.forall_mem_cons] at h
      obtain ⟨c, cs, hcs, hblank, hgt, hslash⟩ := exists_cons_of_name h.1.1 h.1.2
      have hrest := ih (Nat.lt_of_succ_lt_succ hfuel) h.2
      have hread := readAttribute_written h.1.2 (more.flatMap writtenAttribute ++ '>' :: rest)
      unfold readAttributes
      rw [List.flatMap_cons, List.append_assoc, writtenAttribute_append, skipBlanks_blank]
      rw [hcs, List.cons_append] at hread ⊢
      rw [skipBlanks_cons hblank]
      split
      · rename_i heq
        simp at heq
      · rename_i heq
        exact absurd (List.cons.inj heq).1 hgt
      · rename_i heq
        exact absurd (List.cons.inj heq).1 hslash
      · rename_i heq
        obtain ⟨rfl, rfl⟩ := List.cons.inj heq
        rw [hread]
        dsimp only
        rw [hrest]

private theorem length_le_length_writtenAttributes (attributes : List (String × String)) :
    attributes.length ≤ (attributes.flatMap writtenAttribute).length := by
  induction attributes with
  | nil => exact Nat.zero_le _
  | cons pair more ih =>
    rw [List.flatMap_cons, List.length_append, List.length_cons]
    unfold writtenAttribute at ih ⊢
    rw [List.length_cons]
    omega

theorem readOpening_written (h : e.isWritable = true) (rest : List Char) :
    readOpening (e.tag.toList ++ (e.attributes.flatMap writtenAttribute ++ '>' :: rest)) =
      (.opening e.tag e.attributes false, rest) := by
  obtain ⟨⟨-, htag⟩, hattributes⟩ := Element.isWritable_iff.1 h
  -- what follows the tag is a blank or the end of the tag
  obtain ⟨c, cs, hcs, hc⟩ : ∃ c cs, e.attributes.flatMap writtenAttribute ++ '>' :: rest = c :: cs ∧
      isTagChar c = false := by
    cases e.attributes with
    | nil => exact ⟨'>', rest, rfl, by decide⟩
    | cons pair more =>
      rw [List.flatMap_cons, List.append_assoc, writtenAttribute_append]
      exact ⟨' ', _, rfl, by decide⟩
  obtain ⟨htake, hdrop⟩ := sides_append_cons isTagChar c cs (fun x hx => isTagChar_of_isTagLetter (htag x hx)) hc
  rw [← hcs] at htake hdrop
  have hfuel : e.attributes.length < (e.attributes.flatMap writtenAttribute ++ '>' :: rest).length + 1 := by
    have hlength := length_le_length_writtenAttributes e.attributes
    rw [List.length_append]
    omega
  unfold readOpening
  dsimp only
  rw [htake, hdrop, readAttributes_written hfuel hattributes,
    lowerCase_toList fun x hx => (of_isTagLetter (htag x hx)).1]

theorem readToken_startTag (h : e.isWritable = true) (rest : List Char) :
    readToken (e.startTag ++ rest) = (.opening e.tag e.attributes false, rest) := by
  obtain ⟨⟨hne, htag⟩, -⟩ := Element.isWritable_iff.1 h
  have hread := readOpening_written h rest
  unfold Element.startTag
  rw [List.cons_append, List.append_assoc, List.append_assoc, List.singleton_append]
  cases hcs : e.tag.toList with
  | nil => exact absurd (String.toList_eq_nil_iff.1 hcs) hne
  | cons c cs =>
    have hslash : c ≠ '/' := (of_isTagLetter (htag c (by simp [hcs]))).2.2.2
    rw [hcs, List.cons_append] at hread
    rw [List.cons_append, readToken]
    · exact hread
    · intro rest' heq
      exact hslash (List.cons.inj heq).1

theorem trimmed_of_not_isBlank {cs : List Char} (h : ∀ c ∈ cs, Text.isBlank c = false) : Text.trimmed cs = cs := by
  obtain ⟨before, after, heq, hbefore, hafter⟩ := Text.trimmed_eq cs
  have hnone : ∀ part : List Char, (∀ c ∈ part, c ∈ cs) → (∀ c ∈ part, Text.isBlank c = true) → part = [] := by
    intro part hmem hblank
    refine List.eq_nil_iff_forall_not_mem.2 fun c hc => ?_
    simpa [h c (hmem c hc)] using hblank c hc
  have hb := hnone before (fun c hc => by rw [heq]; simp [hc]) hbefore
  have ha := hnone after (fun c hc => by rw [heq]; simp [hc]) hafter
  rw [hb, ha, List.nil_append, List.append_nil] at heq
  exact heq.symm

theorem readToken_endTag (h : e.isWritable = true) (rest : List Char) :
    readToken (e.endTag ++ rest) = (.closing e.tag, rest) := by
  obtain ⟨⟨-, htag⟩, -⟩ := Element.isWritable_iff.1 h
  have hletters := fun c hc => of_isTagLetter (htag c hc)
  obtain ⟨htake, hdrop⟩ := sides_append_cons (· != '>') '>' rest
    (fun c hc => bne_iff_ne.2 (hletters c hc).2.2.1) (by decide)
  unfold Element.endTag
  rw [List.cons_append, List.cons_append, List.append_assoc, List.singleton_append, readToken]
  unfold readClosing
  rw [htake, hdrop, trimmed_of_not_isBlank fun c hc => (hletters c hc).2.1,
    lowerCase_toList fun c hc => (hletters c hc).1, List.drop_succ_cons, List.drop_zero]

/-- A text ends where a tag begins. -/
theorem readToken_escaped {text : String} (hne : text ≠ "") (hrest : ∃ more, rest = '<' :: more) :
    readToken (escaped text ++ rest) = (.text text, rest) := by
  obtain ⟨more, rfl⟩ := hrest
  obtain ⟨htake, hdrop⟩ := sides_append_cons (· != '<') '<' more
    (fun c hc => bne_iff_ne.2 (ne_of_mem_escaped text c hc).1) (by decide)
  have hread : readText (escaped text ++ '<' :: more) = (.text text, '<' :: more) := by
    unfold readText
    rw [htake, hdrop, decodeEntities_escaped]
  cases hcs : escaped text with
  | nil =>
    have hempty := decodeEntities_escaped text
    rw [hcs] at hempty
    exact absurd hempty.symm hne
  | cons c cs =>
    have hc : c ≠ '<' := (ne_of_mem_escaped text c (by simp [hcs])).1
    rw [hcs] at hread
    rw [List.cons_append] at hread ⊢
    rw [readToken]
    · exact hread
    · intro rest' heq
      exact hc (List.cons.inj heq).1
    · intro rest' heq
      exact hc (List.cons.inj heq).1

/-! ### All tokens -/

/-- In front of `rest`, the characters `cs` are read as the tokens `ts`, with fuel for the rest left over. -/
def Reads (cs : List Char) (ts : List Token) (rest : List Char) : Prop :=
  ∀ fuel, (cs ++ rest).length ≤ fuel →
    ∃ left, rest.length ≤ left ∧ readTokens fuel (cs ++ rest) = ts ++ readTokens left rest

theorem Reads.nil (rest : List Char) : Reads [] [] rest :=
  fun fuel hfuel => ⟨fuel, hfuel, rfl⟩

theorem Reads.append (h : Reads cs ts (cs' ++ rest)) (h' : Reads cs' ts' rest) :
    Reads (cs ++ cs') (ts ++ ts') rest := by
  intro fuel hfuel
  rw [List.append_assoc] at hfuel ⊢
  obtain ⟨left, hleft, hread⟩ := h fuel hfuel
  obtain ⟨left', hleft', hread'⟩ := h' left hleft
  exact ⟨left', hleft', by rw [hread, hread', List.append_assoc]⟩

theorem Reads.of_readToken {token : Token} (hne : cs ≠ []) (h : readToken (cs ++ rest) = (token, rest)) :
    Reads cs [token] rest := by
  intro fuel hfuel
  cases cs with
  | nil => exact absurd rfl hne
  | cons c cs =>
    cases fuel with
    | zero => simp at hfuel
    | succ fuel =>
      rw [List.cons_append] at h hfuel ⊢
      rw [List.length_cons, List.length_append] at hfuel
      refine ⟨fuel, by omega, ?_⟩
      rw [readTokens, h]
      rfl

theorem reads_text {text : String} (hrest : ∃ more, rest = '<' :: more) :
    Reads (escaped text) (textTokens text) rest := by
  by_cases hempty : text = ""
  · subst hempty
    exact Reads.nil rest
  · have htokens : textTokens text = [.text text] := if_neg (by simpa using hempty)
    rw [htokens]
    refine Reads.of_readToken (fun hnil => hempty ?_) (readToken_escaped hempty hrest)
    have hdecoded := decodeEntities_escaped text
    rw [hnil] at hdecoded
    exact hdecoded.symm

/-- What is written of elements begins with a tag, as what follows does. -/
private theorem exists_flatMap_render (children : List (Tree Element)) (hrest : ∃ more, rest = '<' :: more) :
    ∃ more, children.flatMap render ++ rest = '<' :: more := by
  cases children with
  | nil => exact hrest
  | cons t others =>
    cases t with
    | node e children =>
      rw [List.flatMap_cons, render_node]
      exact ⟨_, rfl⟩

theorem reads_flatMap_render {forest : List (Tree Element)}
    (h : ∀ t ∈ forest, ∀ rest, Reads (render t) (tokensOf t) rest) (rest : List Char) :
    Reads (forest.flatMap render) (forest.flatMap tokensOf) rest := by
  induction forest with
  | nil => exact Reads.nil rest
  | cons t others ih =>
    rw [List.forall_mem_cons] at h
    exact (h.1 _).append (ih h.2)

theorem reads_render (h : isWritable t = true) (rest : List Char) : Reads (render t) (tokensOf t) rest := by
  induction t using Tree.induction generalizing rest with
  | node e children ih =>
    obtain ⟨he, -, hchildren⟩ := isWritable_node.1 h
    rw [render_node, tokensOf_node, ← List.singleton_append]
    refine Reads.append (Reads.of_readToken (List.cons_ne_nil _ _) (readToken_startTag he _)) ?_
    split
    · exact Reads.nil rest
    · refine Reads.append (reads_text ?_) (Reads.append ?_ ?_)
      · rw [List.append_assoc]
        exact exists_flatMap_render children ⟨_, rfl⟩
      · exact reads_flatMap_render (fun t ht rest => ih t ht (hchildren t ht) rest) _
      · exact Reads.of_readToken (List.cons_ne_nil _ _) (readToken_endTag he rest)

/-- What was written is read as what it was written from. -/
theorem tokens_markup (h : ∀ t ∈ forest, isWritable t = true) :
    tokens (markup forest) = forest.flatMap tokensOf := by
  have hreads := reads_flatMap_render (fun t ht rest => reads_render (h t ht) rest) []
  unfold tokens markup
  rw [String.toList_ofList]
  obtain ⟨left, -, hread⟩ := hreads (forest.flatMap render).length (by simp)
  rw [List.append_nil] at hread
  rw [hread, readTokens, List.append_nil]

/-- A void element in another one, with text that looks like an entity. -/
example : markup [.node { tag := "p", attributes := [("id", "\"")], text := "&lt;" } [.node { tag := "br" } []]] =
    "<p id=\"&quot;\">&amp;lt;<br></p>" := by
  decide +kernel

end PageBindings.Markup
