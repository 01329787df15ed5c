import PageBindings.Markup.Builder
import PageBindings.Proofs.Document.Editing

/-!
# What reading markup adds

`Document.read` puts new trees beside the old ones: the old nodes stay as they are, a new node has no parent or a new
one, and the roots have none (`Builder.Fresh`, kept by every token).  Whether there is an element at all depends on
the markup alone (`read_eq_nil_iff`), and without one the document is as before.
-/

namespace PageBindings

namespace Markup

/-- Whether a token opens an element. -/
def Token.opens : Token → Bool
  | .opening _ _ _ => true
  | .text _ | .closing _ => false

/-- Whether a markup text has an element. -/
def hasElement (markup : String) : Bool :=
  (tokens markup).any Token.opens

end Markup

namespace Document

variable {d : Document} {a c m n p : NodeId}

/-- The next number is not in use yet. -/
theorem parent?_size (d : Document) : d.parent? d.size = none := by
  unfold parent?
  rw [node?_eq_none_iff.2 (Nat.le_refl _)]
  rfl

theorem parent?_add (d : Document) (tag : String) (attributes : List (String × String)) (n : NodeId) :
    (d.add tag attributes).parent? n = d.parent? n := by
  unfold parent?
  rw [node?_add]
  split
  · rename_i h
    rw [node?_eq_none_iff.2 (Nat.le_of_eq h.symm)]
    rfl
  · rfl

/-- A new node has no parent. -/
theorem parent?_add_size (d : Document) (tag : String) (attributes : List (String × String)) :
    (d.add tag attributes).parent? d.size = none :=
  (parent?_add d tag attributes d.size).trans (parent?_size d)

theorem children_add (d : Document) (tag : String) (attributes : List (String × String)) (n : NodeId) :
    (d.add tag attributes).children n = d.children n := by
  unfold children
  rw [node?_add]
  split
  · rename_i h
    rw [node?_eq_none_iff.2 (Nat.le_of_eq h.symm)]
    rfl
  · rfl

theorem Forest.add (hf : d.Forest) (tag : String) (attributes : List (String × String)) :
    (d.add tag attributes).Forest :=
  hf.congr (parent?_add d tag attributes) (children_add d tag attributes) (by rw [size_add]; exact Nat.le_succ _)

theorem Forest.above_lt_size (hf : d.Forest) (h : d.Above a n) (hn : n < d.size) : a < d.size := by
  induction h using Relation.ReflTransGen.head_induction_on with
  | refl => exact hn
  | head hp _ ih => exact ih (hf.parent_lt_size hp)

theorem node?_modify_of_ne {change : Node → Node} (h : n ≠ m) : (d.modify n change).node? m = d.node? m := by
  rw [node?_modify, if_neg h]

/-- Attaching a node without a parent touches the node and its new parent only. -/
theorem node?_attachAt (hc : d.parent? c = none) (hp : m ≠ p) (hm : m ≠ c) (index : Nat) :
    (d.attachAt p c index).node? m = d.node? m := by
  unfold attachAt
  rw [detach_of_parent?_eq_none hc, node?_modify_of_ne (Ne.symm hm), node?_modify_of_ne (Ne.symm hp)]

/-- Attaching a node without a parent as the last child of another one. -/
theorem node?_attachLast (hc : d.parent? c = none) (hp : p ≠ c) (m : NodeId) :
    (d.attachLast p c).node? m = if m = c then (d.node? m).map fun node => { node with parent := some p }
      else if m = p then (d.node? m).map fun node => { node with children := node.children ++ [c] }
      else d.node? m := by
  unfold attachLast
  rw [detach_of_parent?_eq_none hc, node?_modify, node?_modify]
  by_cases hmc : m = c
  · rw [if_pos hmc.symm, if_pos hmc, if_neg fun hpm => hp (hpm.trans hmc)]
  · rw [if_neg (Ne.symm hmc), if_neg hmc]
    simp only [eq_comm]

end Document

namespace Markup.Builder

open Document

/-- Everything beyond the nodes of `d` was made by the builder, and hangs below its own roots. -/
structure Fresh (d : Document) (b : Builder) : Prop where
  size_le : d.size ≤ b.document.size
  node? {n : NodeId} (h : n < d.size) : b.document.node? n = d.node? n
  parent? {n p : NodeId} (h : d.size ≤ n) (hp : b.document.parent? n = some p) : d.size ≤ p
  stack {n : NodeId} (h : n ∈ b.stack) : d.size ≤ n ∧ n < b.document.size
  roots {n : NodeId} (h : n ∈ b.roots) : d.size ≤ n ∧ n < b.document.size ∧ b.document.parent? n = none
  forest (h : d.Forest) : b.document.Forest
  unchanged (h : b.roots = []) : b.stack = [] ∧ b.document = d

variable {d : Document} {b : Builder}

theorem fresh_start (d : Document) : Fresh d { document := d, stack := [], roots := [] } where
  size_le := Nat.le_refl _
  node? _ := rfl
  parent? hn hp := absurd (lt_size_of_parent? hp) (Nat.not_lt.2 hn)
  stack h := by simp at h
  roots h := by simp at h
  forest h := h
  unchanged _ := ⟨rfl, rfl⟩

private theorem Fresh.addText (h : Fresh d b) {n : NodeId} (hn : n ∈ b.stack) (text : String) :
    Fresh d { b with document := b.document.addText n text } := by
  have hparent : ∀ m, (b.document.addText n text).parent? m = b.document.parent? m :=
    fun m => parent?_modify_of_eq fun _ => rfl
  have hsize : (b.document.addText n text).size = b.document.size := size_modify _ _ _
  refine ⟨?_, ?_, ?_, ?_, ?_, ?_, ?_⟩
  · exact hsize ▸ h.size_le
  · intro m hm
    have hne : n ≠ m := fun he => absurd hm (Nat.not_lt.2 (he ▸ (h.stack hn).1))
    exact (node?_modify_of_ne hne).trans (h.node? hm)
  · intro m p hm hp
    exact h.parent? hm ((hparent m).symm.trans hp)
  · intro m hm
    exact hsize ▸ h.stack hm
  · intro m hm
    obtain ⟨h1, h2, h3⟩ := h.roots hm
    exact ⟨h1, hsize ▸ h2, (hparent m).trans h3⟩
  · intro hf
    exact (h.forest hf).congr hparent (fun m => children_modify_of_eq fun _ => rfl) (Nat.le_of_eq hsize.symm)
  · intro hr
    simp [(h.unchanged hr).1] at hn

/-- A new root beside the others. -/
private theorem Fresh.addRoot (h : Fresh d b) (tag : String) (attributes : List (String × String))
    {stack : List NodeId} (hstack : ∀ n ∈ stack, n = b.document.size ∨ n ∈ b.stack) :
    Fresh d { document := b.document.add tag attributes, stack, roots := b.document.size :: b.roots } := by
  have hsize : (b.document.add tag attributes).size = b.document.size + 1 := size_add _ _ _
  refine ⟨?_, ?_, ?_, ?_, ?_, ?_, ?_⟩
  · exact hsize ▸ Nat.le_succ_of_le h.size_le
  · intro m hm
    rw [node?_add, if_neg (Nat.ne_of_lt (Nat.lt_of_lt_of_le hm h.size_le))]
    exact h.node? hm
  · intro m p hm hp
    rw [parent?_add] at hp
    exact h.parent? hm hp
  · intro m hm
    rcases hstack m hm with rfl | hm
    · exact ⟨h.size_le, hsize ▸ Nat.lt_succ_self _⟩
    · exact ⟨(h.stack hm).1, hsize ▸ Nat.lt_succ_of_lt (h.stack hm).2⟩
  · intro m hm
    rw [hsize, parent?_add]
    rcases List.mem_cons.1 hm with rfl | hm
    · exact ⟨h.size_le, Nat.lt_succ_self _, parent?_size _⟩
    · obtain ⟨h1, h2, h3⟩ := h.roots hm
      exact ⟨h1, Nat.lt_succ_of_lt h2, h3⟩
  · exact fun hf => (h.forest hf).add tag attributes
  · intro hr
    simp at hr

/-- A new element in the innermost open one. -/
private theorem Fresh.addChild (h : Fresh d b) (tag : String) (attributes : List (String × String)) {p : NodeId}
    (hp : p ∈ b.stack) {stack : List NodeId} (hstack : ∀ n ∈ stack, n = b.document.size ∨ n ∈ b.stack) :
    Fresh d
      { document := (b.document.add tag attributes).attachLast p b.document.size, stack, roots := b.roots } := by
  have hsize : ((b.document.add tag attributes).attachLast p b.document.size).size = b.document.size + 1 := by
    rw [size_attachLast, size_add]
  have hc : b.document.size < (b.document.add tag attributes).size := by
    rw [size_add]
    exact Nat.lt_succ_self _
  have hparent : ∀ m, ((b.document.add tag attributes).attachLast p b.document.size).parent? m =
      if m = b.document.size then some p else b.document.parent? m := by
    intro m
    rw [attachLast_eq, parent?_attachAt hc, parent?_add]
  obtain ⟨hdp, hps⟩ := h.stack hp
  refine ⟨?_, ?_, ?_, ?_, ?_, ?_, ?_⟩
  · exact hsize ▸ Nat.le_succ_of_le h.size_le
  · intro m hm
    have hms : m ≠ b.document.size := Nat.ne_of_lt (Nat.lt_of_lt_of_le hm h.size_le)
    rw [attachLast_eq, node?_attachAt (parent?_add_size _ _ _) (Nat.ne_of_lt (Nat.lt_of_lt_of_le hm hdp)) hms,
      node?_add, if_neg hms]
    exact h.node? hm
  · intro m q hm hq
    rw [hparent] at hq
    split at hq
    · exact Option.some.inj hq ▸ hdp
    · exact h.parent? hm hq
  · intro m hm
    rw [hsize]
    rcases hstack m hm with rfl | hm
    · exact ⟨h.size_le, Nat.lt_succ_self _⟩
    · exact ⟨(h.stack hm).1, Nat.lt_succ_of_lt (h.stack hm).2⟩
  · intro m hm
    obtain ⟨h1, h2, h3⟩ := h.roots hm
    rw [hsize, hparent, if_neg (Nat.ne_of_lt h2)]
    exact ⟨h1, Nat.lt_succ_of_lt h2, h3⟩
  · intro hf
    have hb := h.forest hf
    have hps' : p < (b.document.add tag attributes).size := Nat.lt_trans hps hc
    rw [attachLast_eq]
    refine (hb.add tag attributes).attachAt hps' hc (Nat.ne_of_gt hb.root_lt_size) ?_ _
    intro ha
    have ha : b.document.Above b.document.size p := by
      unfold Above at ha ⊢
      simpa only [parent?_add] using ha
    exact Nat.lt_irrefl _ (hb.above_lt_size ha hps)
  · intro hr
    simp [(h.unchanged hr).1] at hp

theorem closeElement_suffix {document : Document} {tag : String} {stack outer : List NodeId}
    (h : closeElement document tag stack = some outer) : outer <:+ stack := by
  induction stack with
  | nil => simp [closeElement] at h
  | cons m rest ih =>
    unfold closeElement at h
    split at h
    · obtain rfl := Option.some.inj h
      exact List.suffix_cons m rest
    · exact (ih h).trans (List.suffix_cons m rest)

theorem mem_of_closeElement {document : Document} {tag : String} {stack outer : List NodeId}
    (h : closeElement document tag stack = some outer) {n : NodeId} (hn : n ∈ outer) : n ∈ stack :=
  (closeElement_suffix h).subset hn

private theorem Fresh.openElement (h : Fresh d b) (tag : String) (attributes : List (String × String))
    (selfClosing : Bool) : Fresh d (b.openElement tag attributes selfClosing) := by
  have hstack : ∀ n ∈ (if selfClosing || isVoid tag then b.stack else b.document.size :: b.stack),
      n = b.document.size ∨ n ∈ b.stack := by
    intro n hn
    split at hn
    · exact .inr hn
    · exact List.mem_cons.1 hn
  unfold Builder.openElement
  dsimp only
  split
  · exact h.addRoot tag attributes hstack
  · rename_i p rest hs
    exact h.addChild tag attributes (hs ▸ List.mem_cons_self) hstack

theorem Fresh.step (h : Fresh d b) (token : Token) : Fresh d (b.step token) := by
  cases token with
  | text text =>
    unfold Builder.step
    dsimp only
    split
    · exact h
    · rename_i p rest hs
      exact h.addText (hs ▸ List.mem_cons_self) text
  | opening tag attributes selfClosing => exact h.openElement tag attributes selfClosing
  | closing tag =>
    have hmem : ∀ n ∈ (closeElement b.document tag b.stack).getD b.stack, n ∈ b.stack := by
      intro n hn
      cases hc : closeElement b.document tag b.stack with
      | none => simpa [hc] using hn
      | some outer => exact mem_of_closeElement hc (by simpa [hc] using hn)
    refine { h with stack := fun hn => h.stack (hmem _ hn), unchanged := fun hr => ⟨?_, (h.unchanged hr).2⟩ }
    refine List.eq_nil_iff_forall_not_mem.2 fun n hn => ?_
    simpa [(h.unchanged hr).1] using hmem n hn

theorem Fresh.steps (h : Fresh d b) (tokens : List Token) : Fresh d (tokens.foldl Builder.step b) := by
  induction tokens generalizing b with
  | nil => exact h
  | cons token rest ih => exact ih (h.step token)

private theorem roots_step_eq_nil_iff (h : b.roots = [] → b.stack = []) (token : Token) :
    (b.step token).roots = [] ↔ b.roots = [] ∧ token.opens = false := by
  cases token with
  | text text =>
    unfold Builder.step Token.opens
    dsimp only
    split <;> simp
  | closing tag => simp [Builder.step, Token.opens]
  | opening tag attributes selfClosing =>
    unfold Builder.step Token.opens Builder.openElement
    dsimp only
    split
    · simp
    · rename_i p rest hs
      simp only [Bool.true_eq_false, and_false, iff_false]
      intro hr
      simp [h hr] at hs

theorem roots_steps_eq_nil_iff (h : Fresh d b) (tokens : List Token) :
    (tokens.foldl Builder.step b).roots = [] ↔ b.roots = [] ∧ tokens.any Token.opens = false := by
  induction tokens generalizing b with
  | nil => simp
  | cons token rest ih =>
    rw [List.foldl_cons, ih (h.step token), roots_step_eq_nil_iff fun hr => (h.unchanged hr).1, List.any_cons,
      Bool.or_eq_false_iff, and_assoc]

end Markup.Builder

namespace Document

open Markup

variable {d : Document} {e n p : NodeId}

private theorem fresh_read (d : Document) (markup : String) :
    Builder.Fresh d ((tokens markup).foldl Builder.step { document := d, stack := [], roots := [] }) :=
  (Builder.fresh_start d).steps _

/-- Markup without an element gives none, and there is no other reason. -/
theorem read_eq_nil_iff (d : Document) (markup : String) : (d.read markup).2 = [] ↔ hasElement markup = false := by
  unfold read hasElement
  dsimp only
  rw [List.reverse_eq_nil_iff, Builder.roots_steps_eq_nil_iff (Builder.fresh_start d)]
  simp

/-- Markup with an element gives one. -/
theorem exists_head?_read {markup : String} (d : Document) (has : hasElement markup = true) :
    ∃ first, (d.read markup).2.head? = some first := by
  cases hroots : (d.read markup).2 with
  | nil => simp [(read_eq_nil_iff d markup).1 hroots] at has
  | cons first rest => exact ⟨first, rfl⟩

theorem read_of_eq_nil {markup : String} (h : (d.read markup).2 = []) : (d.read markup).1 = d :=
  ((fresh_read d markup).unchanged (List.reverse_eq_nil_iff.1 h)).2

theorem node?_read {markup : String} (h : n < d.size) : (d.read markup).1.node? n = d.node? n :=
  (fresh_read d markup).node? h

theorem parent?_read {markup : String} (h : n < d.size) : (d.read markup).1.parent? n = d.parent? n := by
  unfold parent?
  rw [node?_read h]

/-- A new node has a new parent, if it has one. -/
theorem size_le_of_parent?_read {markup : String} (h : d.size ≤ n) (hp : (d.read markup).1.parent? n = some p) :
    d.size ≤ p :=
  (fresh_read d markup).parent? h hp

/-- The roots are new nodes without parents. -/
theorem root_read {markup : String} (h : e ∈ (d.read markup).2) :
    d.size ≤ e ∧ e < (d.read markup).1.size ∧ (d.read markup).1.parent? e = none :=
  (fresh_read d markup).roots (List.mem_reverse.1 h)

theorem grows_read (d : Document) (markup : String) : d.Grows (d.read markup).1 := by
  have h := fresh_read d markup
  refine ⟨⟨h.size_le, ?_, ?_, ?_⟩, fun hn => .inl (parent?_read hn), h.forest⟩ <;> intro n hn
  · unfold tag
    rw [node?_read hn]
  · unfold attributes
    rw [node?_read hn]
  · unfold text
    rw [node?_read hn]

end Document

end PageBindings
