import PageBindings.Proofs.Document.Grafting
import PageBindings.Proofs.Document.Tree

/-!
# Reading the same markup twice

Reading markup into a document gives the nodes that reading it into an empty one gives, only with higher numbers
(`shifted_read`): every token keeps the two readings side by side (`Builder.Beside.step`).  So a document holds a copy
of what was read (`Document.Holds`), and goes on to hold it as long as nobody touches those nodes (`Holds.preserves`);
the tree of the copy is that of the original (`Holds.tree_eq`).
-/

namespace PageBindings

namespace Node

/-- A node with its links led `k` numbers further on. -/
def shift (k : Nat) (node : Node) : Node :=
  { node with parent := node.parent.map (· + k), children := node.children.map (· + k) }

/-- What is written in a node, without its links. -/
def bare (node : Node) : Node :=
  { node with parent := none, children := [] }

end Node

namespace Document

/-- What is written in a node, with its value. -/
def bare? (d : Document) (n : NodeId) : Option Node :=
  (d.node? n).map Node.bare

theorem map_bare? {β : Type} {f : Node → β} (hf : ∀ node : Node, f node.bare = f node) (d : Document) (n : NodeId) :
    (d.bare? n).map f = (d.node? n).map f := by
  unfold bare?
  rw [Option.map_map]
  exact congrArg (fun g => Option.map g (d.node? n)) (funext hf)

theorem tag_congr {d d' : Document} {n m : NodeId} (h : d.bare? n = d'.bare? m) : d.tag n = d'.tag m := by
  unfold tag
  rw [← map_bare? (fun _ => rfl), ← map_bare? (fun _ => rfl), h]

theorem attributes_congr {d d' : Document} {n m : NodeId} (h : d.bare? n = d'.bare? m) :
    d.attributes n = d'.attributes m := by
  unfold attributes
  rw [← map_bare? (fun _ => rfl), ← map_bare? (fun _ => rfl), h]

theorem text_congr {d d' : Document} {n m : NodeId} (h : d.bare? n = d'.bare? m) : d.text n = d'.text m := by
  unfold text
  rw [← map_bare? (fun _ => rfl), ← map_bare? (fun _ => rfl), h]

theorem value?_congr {d d' : Document} {n m : NodeId} (h : d.bare? n = d'.bare? m) : d.value? n = d'.value? m := by
  have hvalue : ∀ (e : Document) i, e.value? i = ((e.bare? i).map Node.value).join := by
    intro e i
    rw [map_bare? (fun _ => rfl)]
    unfold value?
    cases e.node? i <;> rfl
  rw [hvalue, hvalue, h]

/-- The nodes of `source` but for its document node are in `d`, each `k` numbers further on. -/
structure Shifted (k : Nat) (source d : Document) : Prop where
  size : d.size = source.size + k
  node? {j : NodeId} (h : 0 < j) : d.node? (j + k) = (source.node? j).map (Node.shift k)

variable {k : Nat} {source d : Document} {c j n p : NodeId}

/-- There is nothing in an empty document that would have to be found again. -/
theorem shifted_empty (h : d.size = k + 1) : Shifted k Document.empty d where
  size := by rw [h, Nat.add_comm]; rfl
  node? {j} hj := by
    have hnone : Document.empty.node? j = none := node?_eq_none_iff.2 hj
    have hnone' : d.node? (j + k) = none := node?_eq_none_iff.2 <| by
      rw [h, Nat.add_comm]
      exact Nat.add_le_add_right hj k
    rw [hnone, hnone']
    rfl

theorem Shifted.tag (h : Shifted k source d) (hj : 0 < j) : d.tag (j + k) = source.tag j := by
  unfold Document.tag
  rw [h.node? hj, Option.map_map]
  rfl

theorem Shifted.parent? (h : Shifted k source d) (hj : 0 < j) :
    d.parent? (j + k) = (source.parent? j).map (· + k) := by
  unfold Document.parent?
  rw [h.node? hj]
  cases source.node? j <;> rfl

theorem Shifted.modify (h : Shifted k source d) {change change' : Node → Node}
    (hchange : ∀ node : Node, change' (node.shift k) = (change node).shift k) (p : NodeId) :
    Shifted k (source.modify p change) (d.modify (p + k) change') where
  size := by rw [size_modify, size_modify, h.size]
  node? {j} hj := by
    rw [node?_modify, node?_modify, h.node? hj]
    by_cases hp : p = j
    · rw [if_pos hp, if_pos (by rw [hp]), Option.map_map, Option.map_map]
      exact congrArg (fun f => Option.map f (source.node? j)) (funext hchange)
    · rw [if_neg hp, if_neg fun he => hp (Nat.add_right_cancel he)]

theorem Shifted.add (h : Shifted k source d) (tag : String) (attributes : List (String × String)) :
    Shifted k (source.add tag attributes) (d.add tag attributes) where
  size := by rw [size_add, size_add, h.size, Nat.add_right_comm]
  node? {j} hj := by
    rw [node?_add, node?_add, h.size, h.node? hj]
    by_cases he : j = source.size
    · rw [if_pos he, if_pos (by rw [he])]
      rfl
    · rw [if_neg he, if_neg fun h => he (Nat.add_right_cancel h)]

theorem Shifted.addText (h : Shifted k source d) (p : NodeId) (text : String) :
    Shifted k (source.addText p text) (d.addText (p + k) text) := by
  refine h.modify (fun node => ?_) p
  rfl

/-- Attaching a node that has no parent yet. -/
theorem Shifted.attachLast (h : Shifted k source d) (hc : 0 < c) (hnone : source.parent? c = none) (p : NodeId) :
    Shifted k (source.attachLast p c) (d.attachLast (p + k) (c + k)) := by
  have hnone' : d.parent? (c + k) = none := by
    rw [h.parent? hc, hnone]
    rfl
  unfold Document.attachLast
  rw [detach_of_parent?_eq_none hnone, detach_of_parent?_eq_none hnone']
  refine (h.modify (fun node => ?_) p).modify (fun node => ?_) c
  · simp [Node.shift]
  · simp [Node.shift]

end Document

/-! ### Two readings side by side -/

namespace Markup.Builder

open Document

/-- Two builders that have taken up the same tokens, the first of them in an empty document. -/
structure Beside (k : Nat) (source b : Builder) : Prop where
  document : Shifted k source.document b.document
  stack : b.stack = source.stack.map (· + k)
  roots : b.roots = source.roots.map (· + k)
  stack_pos {j : NodeId} (h : j ∈ source.stack) : 0 < j
  size_pos : 0 < source.document.size

variable {k : Nat} {source b : Builder}

private theorem Beside.closeElement (h : Beside k source b) (tag : String) {stack : List NodeId}
    (hpos : ∀ j ∈ stack, 0 < j) : closeElement b.document tag (stack.map (· + k)) =
      (closeElement source.document tag stack).map fun outer => outer.map (· + k) := by
  induction stack with
  | nil => rfl
  | cons j outer ih =>
    rw [List.forall_mem_cons] at hpos
    rw [List.map_cons, Builder.closeElement, Builder.closeElement, h.document.tag hpos.1]
    split
    · rfl
    · exact ih hpos.2

private theorem mem_of_closeElement_getD {document : Document} {tag : String} {stack : List NodeId} {n : NodeId}
    (h : n ∈ (closeElement document tag stack).getD stack) : n ∈ stack := by
  cases hclose : Builder.closeElement document tag stack with
  | none => simpa [hclose] using h
  | some outer => exact mem_of_closeElement hclose (by simpa [hclose] using h)

private theorem Beside.openElement (h : Beside k source b) (tag : String) (attributes : List (String × String))
    (selfClosing : Bool) :
    Beside k (source.openElement tag attributes selfClosing) (b.openElement tag attributes selfClosing) := by
  have hadd := h.document.add tag attributes
  have hstack : (if selfClosing || isVoid tag then b.stack else b.document.size :: b.stack) =
      (if selfClosing || isVoid tag then source.stack else source.document.size :: source.stack).map (· + k) := by
    rw [h.stack, h.document.size]
    split <;> rfl
  have hpos : ∀ j ∈ (if selfClosing || isVoid tag then source.stack else source.document.size :: source.stack),
      0 < j := by
    split
    · exact fun j hj => h.stack_pos hj
    · exact List.forall_mem_cons.2 ⟨h.size_pos, fun j hj => h.stack_pos hj⟩
  unfold Builder.openElement
  cases hs : source.stack with
  | nil =>
    have hb : b.stack = [] := by rw [h.stack, hs]; rfl
    rw [hs] at hstack hpos
    rw [hb] at hstack ⊢
    exact ⟨hadd, hstack, by rw [List.map_cons, h.document.size, h.roots], fun hj => hpos _ hj,
      by rw [size_add]; exact Nat.succ_pos _⟩
  | cons p outer =>
    have hb : b.stack = (p + k) :: outer.map (· + k) := by rw [h.stack, hs]; rfl
    rw [hs] at hstack hpos
    rw [hb] at hstack ⊢
    refine ⟨?_, hstack, h.roots, fun hj => hpos _ hj, by rw [size_attachLast, size_add]; exact Nat.succ_pos _⟩
    rw [h.document.size]
    exact hadd.attachLast h.size_pos (parent?_add_size _ _ _) p

theorem Beside.step (h : Beside k source b) (token : Token) : Beside k (source.step token) (b.step token) := by
  cases token with
  | text text =>
    have hstack := h.stack
    unfold Builder.step
    cases hs : source.stack with
    | nil =>
      rw [hs, List.map_nil] at hstack
      simp only [hstack]
      exact h
    | cons p outer =>
      rw [hs, List.map_cons] at hstack
      simp only [hstack]
      refine ⟨h.document.addText p text, rfl, h.roots, fun hj => h.stack_pos (hs ▸ hj), ?_⟩
      exact (size_modify _ _ _).symm ▸ h.size_pos
  | opening tag attributes selfClosing => exact h.openElement tag attributes selfClosing
  | closing tag =>
    refine ⟨h.document, ?_, h.roots, fun hj => h.stack_pos (mem_of_closeElement_getD hj), h.size_pos⟩
    show (Builder.closeElement b.document tag b.stack).getD b.stack = _
    rw [h.stack, h.closeElement tag fun j hj => h.stack_pos hj]
    exact Option.getD_map (List.map (· + k)) source.stack _

theorem Beside.steps (h : Beside k source b) (tokens : List Token) :
    Beside k (tokens.foldl Builder.step source) (tokens.foldl Builder.step b) := by
  induction tokens generalizing source b with
  | nil => exact h
  | cons token rest ih => exact ih (h.step token)

end Markup.Builder

namespace Document

open Markup

variable {k : Nat} {source d d' : Document} {j n p r : NodeId}

private theorem beside_read (h : d.size = k + 1) (markup : String) : Builder.Beside k
    ((tokens markup).foldl Builder.step { document := Document.empty, stack := [], roots := [] })
    ((tokens markup).foldl Builder.step { document := d, stack := [], roots := [] }) := by
  refine Builder.Beside.steps ⟨shifted_empty h, rfl, rfl, fun hj => ?_, forest_empty.size_pos⟩ _
  simp at hj

/-- What is read has the same nodes wherever it is read, with other numbers. -/
theorem shifted_read (h : d.size = k + 1) (markup : String) :
    Shifted k (Document.empty.read markup).1 (d.read markup).1 :=
  (beside_read h markup).document

theorem roots_read (h : d.size = k + 1) (markup : String) :
    (d.read markup).2 = (Document.empty.read markup).2.map (· + k) := by
  unfold read
  rw [List.map_reverse]
  exact congrArg List.reverse (beside_read h markup).roots

/-! ### Copies -/

/-- In the numbers after `k` there is a copy of what `source` has below its document node. -/
structure Holds (d source : Document) (k : Nat) : Prop where
  size_le : source.size + k ≤ d.size
  bare? {j : NodeId} (hpos : 0 < j) (hj : j < source.size) : d.bare? (j + k) = source.bare? j
  children {j : NodeId} (hpos : 0 < j) (hj : j < source.size) : d.children (j + k) = (source.children j).map (· + k)

/-- What is written in the nodes stays, and so do the children of the nodes from `base` on. -/
structure Preserves (base : NodeId) (d d' : Document) : Prop where
  size_le : d.size ≤ d'.size
  bare? {n : NodeId} (hn : n < d.size) : d'.bare? n = d.bare? n
  children {n : NodeId} (hbase : base ≤ n) (hn : n < d.size) : d'.children n = d.children n

theorem Shifted.holds (h : Shifted k source d) : d.Holds source k where
  size_le := Nat.le_of_eq h.size.symm
  bare? {j} hpos _ := by
    unfold Document.bare?
    rw [h.node? hpos, Option.map_map]
    rfl
  children {j} hpos _ := by
    unfold Document.children
    rw [h.node? hpos]
    cases source.node? j <;> rfl

/-- The numbers of the copy come after `k`. -/
theorem le_add_of_pos {base : Nat} (hbase : base ≤ k + 1) (hj : 0 < j) : base ≤ j + k := by
  rw [Nat.add_comm] at hbase
  exact Nat.le_trans hbase (Nat.add_le_add_right hj k)

theorem Preserves.refl (base : NodeId) (d : Document) : Preserves base d d :=
  ⟨Nat.le_refl _, fun _ => rfl, fun _ _ => rfl⟩

theorem Preserves.trans {base : NodeId} {d'' : Document} (h : Preserves base d d') (h' : Preserves base d' d'') :
    Preserves base d d'' where
  size_le := Nat.le_trans h.size_le h'.size_le
  bare? hn := (h'.bare? (Nat.lt_of_lt_of_le hn h.size_le)).trans (h.bare? hn)
  children hbase hn := (h'.children hbase (Nat.lt_of_lt_of_le hn h.size_le)).trans (h.children hbase hn)

theorem Holds.preserves {base : NodeId} (h : d.Holds source k) (hp : Preserves base d d') (hbase : base ≤ k + 1) :
    d'.Holds source k where
  size_le := Nat.le_trans h.size_le hp.size_le
  bare? {j} hpos hj := (hp.bare? (Nat.lt_of_lt_of_le (Nat.add_lt_add_right hj k) h.size_le)).trans (h.bare? hpos hj)
  children {j} hpos hj := by
    have hlt : j + k < d.size := Nat.lt_of_lt_of_le (Nat.add_lt_add_right hj k) h.size_le
    exact (hp.children (le_add_of_pos hbase hpos) hlt).trans (h.children hpos hj)

/-- What is below a node that is not the document node is not it either. -/
theorem Forest.pos_of_above (hf : d.Forest) (hr : 0 < r) (h : d.Above r n) : 0 < n := by
  refine Nat.pos_of_ne_zero fun hn => Nat.ne_of_gt hr ?_
  exact (hn ▸ h).eq_of_parent?_eq_none hf.parent?_root

/-- The copy of a tree has the same tree. -/
theorem Holds.tree_eq {α : Type} (h : d.Holds source k) (hs : source.Forest) (hf : d.Forest) (hr : 0 < r)
    (hlt : r < source.size) (label : NodeId → α) : d.tree label (r + k) = source.tree (fun j => label (j + k)) r :=
  hs.tree_eq_of_children hf fun _ hm => h.children (hs.pos_of_above hr hm) (hm.lt_size hlt)

/-- What is below the copy of a node is the copy of what is below the node. -/
theorem Holds.above_iff (h : d.Holds source k) (hs : source.Forest) (hf : d.Forest) (hr : 0 < r)
    (hlt : r < source.size) : d.Above (r + k) n ↔ ∃ j, source.Above r j ∧ n = j + k := by
  have hlabels := congrArg Tree.labels (h.tree_eq hs hf hr hlt id)
  rw [hf.labels_tree, hs.labels_tree, List.map_id] at hlabels
  rw [← hf.mem_cons_descendants_iff, hlabels, List.mem_map]
  exact exists_congr fun j => and_congr hs.mem_cons_descendants_iff eq_comm

/-- What is read after other nodes is a copy of what is read into an empty document. -/
theorem exists_copy_read (hf : d.Forest) {markup : String}
    (hr : (Document.empty.read markup).2.head? = some r) :
    ∃ k, d.size = k + 1 ∧ (d.read markup).2.head? = some (r + k) ∧
      (d.read markup).1.Holds (Document.empty.read markup).1 k := by
  obtain ⟨k, hk⟩ : ∃ k, d.size = k + 1 := Nat.exists_eq_succ_of_ne_zero (Nat.ne_of_gt hf.size_pos)
  refine ⟨k, hk, ?_, (shifted_read hk markup).holds⟩
  rw [roots_read hk, List.head?_map, hr]
  rfl

end Document

end PageBindings
