import PageBindings.Markup.Builder
import PageBindings.Proofs.Markup.Bytes

/-!
# Where the characters of a document come from

If the characters of a markup text belong to a class that entities and lower case do not leave (`Closed`), so do those
of the elements that are made of it (`spelledFrom_read`).  So reading makes up no character, a replacement character
least of all (`no_replacement_read`).
-/

namespace PageBindings

namespace Markup

/-- All characters of the text belong to a class. -/
def Within (p : Char → Prop) (text : String) : Prop :=
  ∀ c ∈ text.toList, p c

/-- A class of characters with those for which entities stand, and with its letters in lower case. -/
structure Closed (p : Char → Prop) : Prop where
  toLower {c : Char} (h : p c) : p c.toLower
  entities : ∀ entry ∈ entityTable, p entry.2

/-- All characters of the token belong to a class. -/
def Token.Within (p : Char → Prop) : Token → Prop
  | .text content => Markup.Within p content
  | .opening tag attributes _ =>
    Markup.Within p tag ∧ ∀ pair ∈ attributes, Markup.Within p pair.1 ∧ Markup.Within p pair.2
  | .closing tag => Markup.Within p tag

variable {p : Char → Prop} {cs : List Char} {a b : String}

theorem within_ofList : Within p (String.ofList cs) ↔ ∀ c ∈ cs, p c := by
  unfold Within
  rw [String.toList_ofList]

theorem Within.append (ha : Within p a) (hb : Within p b) : Within p (a ++ b) := by
  intro c hc
  rw [String.toList_append, List.mem_append] at hc
  rcases hc with hc | hc
  · exact ha c hc
  · exact hb c hc

/-! ### Tokens -/

section Tokens

theorem within_lowerCase (hp : Closed p) (h : ∀ c ∈ cs, p c) : Within p (lowerCase cs) := by
  unfold lowerCase
  rw [within_ofList]
  intro c hc
  obtain ⟨x, hx, rfl⟩ := List.mem_map.1 hc
  exact hp.toLower (h x hx)

theorem within_decodeEntities (hp : Closed p) (h : ∀ c ∈ cs, p c) : Within p (String.ofList (decodeEntities cs)) := by
  have hentity : p '"' ∧ p '\'' ∧ p '<' ∧ p '>' ∧ p '&' := by simpa [entityTable] using hp.entities
  rw [within_ofList]
  fun_induction decodeEntities cs with
  | case1 => simp
  | case2 rest ih => exact List.forall_mem_cons.2 ⟨hentity.1, ih fun c hc => h c (by simp [hc])⟩
  | case3 rest ih => exact List.forall_mem_cons.2 ⟨hentity.2.1, ih fun c hc => h c (by simp [hc])⟩
  | case4 rest ih => exact List.forall_mem_cons.2 ⟨hentity.2.2.1, ih fun c hc => h c (by simp [hc])⟩
  | case5 rest ih => exact List.forall_mem_cons.2 ⟨hentity.2.2.2.1, ih fun c hc => h c (by simp [hc])⟩
  | case6 rest ih => exact List.forall_mem_cons.2 ⟨hentity.2.2.2.2, ih fun c hc => h c (by simp [hc])⟩
  | case7 c rest _ _ _ _ _ ih =>
    exact List.forall_mem_cons.2 ⟨h c List.mem_cons_self, ih fun c hc => h c (by simp [hc])⟩

/-- A part of the characters, in front or behind. -/
private theorem forall_takeWhile (h : ∀ c ∈ cs, p c) (q : Char → Bool) : ∀ c ∈ cs.takeWhile q, p c :=
  fun c hc => h c ((List.takeWhile_prefix q).subset hc)

private theorem forall_dropWhile (h : ∀ c ∈ cs, p c) (q : Char → Bool) : ∀ c ∈ cs.dropWhile q, p c :=
  fun c hc => h c ((List.dropWhile_suffix q).subset hc)

private theorem forall_drop (h : ∀ c ∈ cs, p c) (n : Nat) : ∀ c ∈ cs.drop n, p c :=
  fun c hc => h c (List.mem_of_mem_drop hc)

theorem within_readValue (hp : Closed p) (h : ∀ c ∈ cs, p c) :
    Within p (readValue cs).1 ∧ ∀ c ∈ (readValue cs).2, p c := by
  fun_cases readValue cs with
  | case1 rest =>
    have hrest : ∀ c ∈ rest, p c := fun c hc => h c (List.mem_cons_of_mem _ hc)
    exact ⟨within_decodeEntities hp (forall_takeWhile hrest _), forall_drop (forall_dropWhile hrest _) 1⟩
  | case2 rest =>
    have hrest : ∀ c ∈ rest, p c := fun c hc => h c (List.mem_cons_of_mem _ hc)
    exact ⟨within_decodeEntities hp (forall_takeWhile hrest _), forall_drop (forall_dropWhile hrest _) 1⟩
  | case3 cs _ _ => exact ⟨within_ofList.2 (forall_takeWhile h _), forall_dropWhile h _⟩

theorem within_readAttribute (hp : Closed p) (h : ∀ c ∈ cs, p c) :
    (Within p (readAttribute cs).1.1 ∧ Within p (readAttribute cs).1.2) ∧ ∀ c ∈ (readAttribute cs).2, p c := by
  have hname := within_lowerCase hp (forall_takeWhile h isAttributeChar)
  have hskip : ∀ c ∈ skipBlanks (cs.dropWhile isAttributeChar), p c :=
    forall_dropWhile (forall_dropWhile h isAttributeChar) Text.isAsciiBlank
  unfold readAttribute
  dsimp only
  split
  · rename_i rest hrest
    rw [hrest] at hskip
    have hafter : ∀ c ∈ skipBlanks rest, p c :=
      forall_dropWhile (fun c hc => hskip c (List.mem_cons_of_mem _ hc)) Text.isAsciiBlank
    obtain ⟨hvalue, hmore⟩ := within_readValue hp hafter
    exact ⟨⟨hname, hvalue⟩, hmore⟩
  · exact ⟨⟨hname, by simp [Within]⟩, hskip⟩

theorem within_readAttributes (hp : Closed p) (fuel : Nat) (h : ∀ c ∈ cs, p c) :
    (∀ pair ∈ (readAttributes fuel cs).1, Within p pair.1 ∧ Within p pair.2) ∧
      ∀ c ∈ (readAttributes fuel cs).2.2, p c := by
  induction fuel generalizing cs with
  | zero => exact ⟨by simp [readAttributes], h⟩
  | succ fuel ih =>
    have hskip : ∀ c ∈ skipBlanks cs, p c := forall_dropWhile h Text.isAsciiBlank
    unfold readAttributes
    split
    · simp
    · rename_i rest hrest
      rw [hrest] at hskip
      exact ⟨by simp, fun c hc => hskip c (List.mem_cons_of_mem _ hc)⟩
    · rename_i rest hrest
      rw [hrest] at hskip
      exact ih fun c hc => hskip c (List.mem_cons_of_mem _ hc)
    · rename_i c rest _ _ hrest
      rw [hrest] at hskip
      obtain ⟨hfirst, hafter⟩ := within_readAttribute hp hskip
      obtain ⟨hothers, hmore⟩ := ih hafter
      exact ⟨List.forall_mem_cons.2 ⟨hfirst, hothers⟩, hmore⟩

theorem within_readToken (hp : Closed p) (h : ∀ c ∈ cs, p c) :
    (readToken cs).1.Within p ∧ ∀ c ∈ (readToken cs).2, p c := by
  unfold readToken
  split
  · rename_i rest
    have hrest : ∀ c ∈ rest, p c := fun c hc => h c (by simp [hc])
    obtain ⟨before, after, hsplit, -, -⟩ := Text.trimmed_eq (rest.takeWhile (· != '>'))
    have htag : ∀ c ∈ Text.trimmed (rest.takeWhile (· != '>')), p c := by
      intro c hc
      refine forall_takeWhile hrest (· != '>') c ?_
      rw [hsplit]
      simp [hc]
    exact ⟨within_lowerCase hp htag, forall_drop (forall_dropWhile hrest _) 1⟩
  · rename_i rest _
    have hrest : ∀ c ∈ rest, p c := fun c hc => h c (List.mem_cons_of_mem _ hc)
    have hafter := forall_dropWhile hrest isTagChar
    obtain ⟨hattributes, hmore⟩ := within_readAttributes hp ((rest.dropWhile isTagChar).length + 1) hafter
    exact ⟨⟨within_lowerCase hp (forall_takeWhile hrest _), hattributes⟩, hmore⟩
  · exact ⟨within_decodeEntities hp (forall_takeWhile h _), forall_dropWhile h _⟩

theorem within_readTokens (hp : Closed p) (fuel : Nat) (h : ∀ c ∈ cs, p c) :
    ∀ token ∈ readTokens fuel cs, token.Within p := by
  induction fuel generalizing cs with
  | zero => cases cs <;> simp [readTokens]
  | succ fuel ih =>
    cases cs with
    | nil => simp [readTokens]
    | cons c cs =>
      obtain ⟨hfirst, hrest⟩ := within_readToken hp h
      rw [readTokens]
      exact List.forall_mem_cons.2 ⟨hfirst, ih hrest⟩

end Tokens

/-- What is written in a node is of characters that belong to a class. -/
structure IsSpelled (p : Char → Prop) (node : Node) : Prop where
  tag : Within p node.tag
  attributes : ∀ pair ∈ node.attributes, Within p pair.1 ∧ Within p pair.2
  text : Within p node.text

/-- What is written in the nodes from `first` on is of characters that belong to a class. -/
def SpelledFrom (p : Char → Prop) (first : NodeId) (d : Document) : Prop :=
  ∀ n node, first ≤ n → d.node? n = some node → IsSpelled p node

/-! ### Nodes -/

section Nodes

variable {d : Document} {first n c : NodeId}

theorem SpelledFrom.modify {change : Node → Node} (h : SpelledFrom p first d)
    (hchange : ∀ node, IsSpelled p node → IsSpelled p (change node)) : SpelledFrom p first (d.modify n change) := by
  intro m node hm hnode
  rw [Document.node?_modify] at hnode
  split at hnode
  · obtain ⟨before, hbefore, rfl⟩ := Option.map_eq_some_iff.1 hnode
    exact hchange before (h m before hm hbefore)
  · exact h m node hm hnode

/-- Links are not written. -/
theorem SpelledFrom.attachLast (h : SpelledFrom p first d) : SpelledFrom p first (d.attachLast n c) := by
  have hdetach : SpelledFrom p first (d.detach c) := by
    unfold Document.detach
    split
    · exact h
    · refine SpelledFrom.modify (h.modify ?_) ?_
      · exact fun node hnode => ⟨hnode.tag, hnode.attributes, hnode.text⟩
      · exact fun node hnode => ⟨hnode.tag, hnode.attributes, hnode.text⟩
  refine SpelledFrom.modify (hdetach.modify ?_) ?_
  · exact fun node hnode => ⟨hnode.tag, hnode.attributes, hnode.text⟩
  · exact fun node hnode => ⟨hnode.tag, hnode.attributes, hnode.text⟩

theorem SpelledFrom.addText {text : String} (h : SpelledFrom p first d) (htext : Within p text) :
    SpelledFrom p first (d.addText n text) :=
  h.modify fun _ hnode => ⟨hnode.tag, hnode.attributes, hnode.text.append htext⟩

theorem SpelledFrom.add {tag : String} {attributes : List (String × String)} (h : SpelledFrom p first d)
    (htag : Within p tag) (hattributes : ∀ pair ∈ attributes, Within p pair.1 ∧ Within p pair.2) :
    SpelledFrom p first (d.add tag attributes) := by
  intro m node hm hnode
  rw [Document.node?_add] at hnode
  split at hnode
  · obtain rfl := Option.some.inj hnode
    exact ⟨htag, hattributes, by simp [Within]⟩
  · exact h m node hm hnode

theorem SpelledFrom.step {b : Builder} {token : Token} (h : SpelledFrom p first b.document)
    (htoken : token.Within p) :
    SpelledFrom p first (b.step token).document := by
  cases token with
  | text content =>
    unfold Builder.step
    dsimp only
    split
    · exact h
    · exact h.addText htoken
  | opening tag attributes selfClosing =>
    have hadd := h.add htoken.1 htoken.2
    unfold Builder.step Builder.openElement
    dsimp only
    split
    · exact hadd
    · exact hadd.attachLast
  | closing tag => exact h

theorem SpelledFrom.steps {b : Builder} {tokens : List Token} (h : SpelledFrom p first b.document)
    (htokens : ∀ token ∈ tokens, token.Within p) : SpelledFrom p first (tokens.foldl Builder.step b).document := by
  induction tokens generalizing b with
  | nil => exact h
  | cons token rest ih =>
    rw [List.forall_mem_cons] at htokens
    exact ih (h.step htokens.1) htokens.2

end Nodes

/-- What reading markup adds is of the characters of the markup, their lower case, and those that entities name. -/
theorem spelledFrom_read (hp : Closed p) (d : Document) {markup : String} (h : Within p markup) :
    SpelledFrom p d.size (d.read markup).1 := by
  refine SpelledFrom.steps (fun n node hn hnode => ?_) (within_readTokens hp _ h)
  have hnone : d.node? n = none := Array.getElem?_eq_none hn
  simp [hnone] at hnode

/-- No letter has the replacement character for its lower case. -/
private theorem eq_replacement_of_toLower {c : Char} (h : c.toLower = '\uFFFD') : c = '\uFFFD' := by
  unfold Char.toLower at h
  split at h
  · rename_i hupper
    have hle : c.val.toNat ≤ 90 := UInt32.le_iff_toNat_le.1 hupper.2
    have hval := congrArg (fun c : Char => c.val.toNat) h
    have hnumbers : ('a'.val - 'A'.val).toNat = 32 ∧ ('\uFFFD').val.toNat = 65533 := by decide
    rw [UInt32.toNat_add] at hval
    omega
  · exact h

/-- Without a replacement character in the markup none gets into the document. -/
theorem no_replacement_read (d : Document) {markup : String} (h : '\uFFFD' ∉ markup.toList) :
    SpelledFrom (· ≠ '\uFFFD') d.size (d.read markup).1 := by
  have hclosed : Closed (· ≠ '\uFFFD') :=
    ⟨fun hc hlower => hc (eq_replacement_of_toLower hlower), by decide⟩
  exact spelledFrom_read hclosed d fun c hc heq => h (heq ▸ hc)

end Markup

end PageBindings
