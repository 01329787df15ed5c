import PageBindings.Document.Moves
import PageBindings.Proofs.Document.Ancestry

/-!
# What an edit of a document leaves alone

Nodes are never taken away, and what is written in them stays (`Document.Keeps`).  Every edit but one that moves a
node which was there before also leaves each old node below its old parent or takes it out, and keeps a forest a
forest (`Document.Grows`).  Detaching a node and changing a value are such edits; attaching a node keeps parents and
children in agreement (`Linked.attachAt`), and keeps a forest if the node is not above its new parent
(`Forest.attachAt`).

A place is looked up before the nodes are taken out that are exchanged.  Only if the last child is exchanged for
another child of the same node there is no such place afterwards (`Linked.index_le_iff`).
-/

namespace PageBindings.Document

/-- The old nodes are still there, with their tags, attributes and texts. -/
structure Keeps (d d' : Document) : Prop where
  size_le : d.size ≤ d'.size
  tag {n : NodeId} (h : n < d.size) : d'.tag n = d.tag n
  attributes {n : NodeId} (h : n < d.size) : d'.attributes n = d.attributes n
  text {n : NodeId} (h : n < d.size) : d'.text n = d.text n

/-- Besides, an old node is below its old parent or below none, and a forest stays one. -/
structure Grows (d d' : Document) : Prop extends Keeps d d' where
  parent? {n : NodeId} (h : n < d.size) : d'.parent? n = d.parent? n ∨ d'.parent? n = none
  forest (h : d.Forest) : d'.Forest

variable {d d' d'' : Document} {a b c e m n p q target : NodeId} {index : Nat}

theorem Keeps.refl (d : Document) : d.Keeps d :=
  ⟨Nat.le_refl _, fun _ => rfl, fun _ => rfl, fun _ => rfl⟩

theorem Keeps.trans (h : d.Keeps d') (h' : d'.Keeps d'') : d.Keeps d'' where
  size_le := Nat.le_trans h.size_le h'.size_le
  tag hn := (h'.tag (Nat.lt_of_lt_of_le hn h.size_le)).trans (h.tag hn)
  attributes hn := (h'.attributes (Nat.lt_of_lt_of_le hn h.size_le)).trans (h.attributes hn)
  text hn := (h'.text (Nat.lt_of_lt_of_le hn h.size_le)).trans (h.text hn)

theorem Keeps.attribute? (h : d.Keeps d') (hn : n < d.size) (name : String) :
    d'.attribute? n name = d.attribute? n name := by
  unfold Document.attribute?
  rw [h.attributes hn]

theorem Grows.refl (d : Document) : d.Grows d :=
  ⟨Keeps.refl d, fun _ => .inl rfl, id⟩

theorem Grows.trans (h : d.Grows d') (h' : d'.Grows d'') : d.Grows d'' where
  toKeeps := h.toKeeps.trans h'.toKeeps
  parent? hn := by
    rcases h'.parent? (Nat.lt_of_lt_of_le hn h.size_le) with he | he
    · rw [he]
      exact h.parent? hn
    · exact .inr he
  forest hf := h'.forest (h.forest hf)

/-- The way up from an old node leads through old nodes, as it did before. -/
theorem Grows.above (h : d.Grows d') (hf : d.Forest) (hn : n < d.size) (ha : d'.Above a n) : d.Above a n := by
  induction ha using Relation.ReflTransGen.head_induction_on with
  | refl => exact Above.refl d a
  | head hp _ ih =>
    rcases h.parent? hn with he | he
    · rw [he] at hp
      exact Above.of_parent? hp (ih (hf.parent_lt_size hp))
    · simp [he] at hp

/-- What was above a node that is still attached is above it still. -/
theorem Grows.above_of_attached (h : d.Grows d') (hf : d.Forest) (hr : d'.Above root n) (ha : d.Above a n) :
    d'.Above a n := by
  induction ha using Relation.ReflTransGen.head_induction_on with
  | refl => exact Above.refl d' a
  | @head n p hp _ ih =>
    rcases above_iff.1 hr with hroot | ⟨q, hq, hr⟩
    · rw [← hroot, hf.parent?_root] at hp
      simp at hp
    · rcases h.parent? (lt_size_of_parent? hp) with he | he
      · obtain rfl : q = p := Option.some.inj (hq.symm.trans (he.trans hp))
        exact Above.of_parent? hq (ih hr)
      · simp [he] at hq

/-! ### Changing one node -/

theorem parent?_modify (change : Node → Node) :
    (d.modify n change).parent? m =
      if n = m then (d.node? m).bind fun node => (change node).parent else d.parent? m := by
  unfold parent?
  rw [node?_modify]
  split
  · rw [Option.bind_map]; rfl
  · rfl

theorem children_modify (change : Node → Node) :
    (d.modify n change).children m =
      if n = m then ((d.node? m).map fun node => (change node).children).getD [] else d.children m := by
  unfold children
  rw [node?_modify]
  split
  · rw [Option.map_map]; rfl
  · rfl

theorem parent?_modify_of_eq {change : Node → Node} (h : ∀ node, (change node).parent = node.parent) :
    (d.modify n change).parent? m = d.parent? m := by
  rw [parent?_modify]
  simp only [h]
  split <;> rfl

theorem children_modify_of_eq {change : Node → Node} (h : ∀ node, (change node).children = node.children) :
    (d.modify n change).children m = d.children m := by
  rw [children_modify]
  simp only [h]
  split <;> rfl

/-- A change of one node that leaves alone what is written in it. -/
theorem keeps_modify {change : Node → Node}
    (h : ∀ node, (change node).tag = node.tag ∧ (change node).attributes = node.attributes ∧
      (change node).text = node.text) : d.Keeps (d.modify n change) := by
  refine ⟨Nat.le_of_eq (size_modify d n change).symm, ?_, ?_, ?_⟩ <;> intro m _
  · unfold tag
    rw [node?_modify]
    split
    · rw [Option.map_map]
      congr 2
      exact funext fun node => (h node).1
    · rfl
  · unfold attributes
    rw [node?_modify]
    split
    · rw [Option.map_map]
      congr 2
      exact funext fun node => (h node).2.1
    · rfl
  · unfold text
    rw [node?_modify]
    split
    · rw [Option.map_map]
      congr 2
      exact funext fun node => (h node).2.2
    · rfl

theorem modify_congr {change change' : Node → Node} (h : ∀ node, d.node? n = some node → change node = change' node) :
    d.modify n change = d.modify n change' := by
  unfold modify
  congr 1
  apply Array.ext_getElem?
  intro i
  rw [Array.getElem?_modify, Array.getElem?_modify]
  split
  · rename_i he
    subst he
    cases hn : d.nodes[n]? with
    | none => rfl
    | some node => rw [Option.map_some, Option.map_some, h node hn]
  · rfl

/-! ### Values -/

/-- The same links make the same forest. -/
theorem Forest.congr (hf : d.Forest) (hparent : ∀ n, d'.parent? n = d.parent? n)
    (hchildren : ∀ n, d'.children n = d.children n) (hsize : d.size ≤ d'.size) : d'.Forest where
  mem_children_iff := by
    intro p n
    rw [hchildren, hparent]
    exact hf.mem_children_iff
  nodup_children p := by
    rw [hchildren]
    exact hf.nodup_children p
  acyclic n := by
    unfold ProperlyAbove
    simp only [hparent]
    exact hf.acyclic n
  parent?_root := (hparent root).trans hf.parent?_root
  size_pos := Nat.lt_of_lt_of_le hf.size_pos hsize

theorem grows_setValue (d : Document) (n : NodeId) (value : Option String) : d.Grows (d.setValue n value) where
  toKeeps := keeps_modify fun _ => ⟨rfl, rfl, rfl⟩
  parent? _ := .inl (parent?_modify_of_eq fun _ => rfl)
  forest hf := hf.congr (fun _ => parent?_modify_of_eq fun _ => rfl) (fun _ => children_modify_of_eq fun _ => rfl)
    (Nat.le_of_eq (size_modify d n _).symm)

theorem grows_forgetValues (d : Document) (nodes : List NodeId) : d.Grows (d.forgetValues nodes) := by
  unfold forgetValues
  induction nodes generalizing d with
  | nil => exact Grows.refl d
  | cons n rest ih => exact (grows_setValue d n none).trans (ih _)

theorem size_forgetValues (d : Document) (nodes : List NodeId) : (d.forgetValues nodes).size = d.size := by
  unfold forgetValues
  induction nodes generalizing d with
  | nil => rfl
  | cons n rest ih => exact (ih _).trans (size_modify d n _)

/-! ### Detaching -/

theorem keeps_detach (d : Document) (n : NodeId) : d.Keeps (d.detach n) := by
  unfold detach
  split
  · exact Keeps.refl d
  · refine Keeps.trans (keeps_modify ?_) (keeps_modify ?_)
    · exact fun _ => ⟨rfl, rfl, rfl⟩
    · exact fun _ => ⟨rfl, rfl, rfl⟩

theorem parent?_detach : (d.detach n).parent? m = if m = n then none else d.parent? m := by
  unfold detach
  split
  · rename_i hn
    split
    · rename_i he
      exact he ▸ hn
    · rfl
  · rw [parent?_modify_of_eq, parent?_modify]
    · by_cases h : n = m
      · subst h
        cases d.node? n <;> simp
      · simp [h, Ne.symm h]
    · exact fun _ => rfl

theorem children_detach :
    (d.detach n).children p = if d.parent? n = some p then (d.children p).erase n else d.children p := by
  unfold detach
  split
  · rename_i hn
    simp [hn]
  · rename_i parent hn
    rw [children_modify]
    by_cases h : parent = p
    · subst h
      have hc : (d.modify n fun node => { node with parent := none }).children parent = d.children parent :=
        children_modify_of_eq fun _ => rfl
      rw [if_pos rfl, if_pos hn, ← hc]
      unfold children
      cases (d.modify n fun node => { node with parent := none }).node? parent <;> rfl
    · rw [if_neg h, children_modify_of_eq, if_neg]
      · simpa [hn] using h
      · exact fun _ => rfl

theorem detach_of_parent?_eq_none (h : d.parent? n = none) : d.detach n = d := by
  unfold detach
  rw [h]

/-- Parents and children agree. -/
structure Linked (d : Document) : Prop where
  mem_children_iff {p n : NodeId} : n ∈ d.children p ↔ d.parent? n = some p
  nodup_children (p : NodeId) : (d.children p).Nodup

theorem Forest.linked (hf : d.Forest) : d.Linked :=
  ⟨hf.mem_children_iff, hf.nodup_children⟩

theorem Linked.detach (h : d.Linked) (n : NodeId) : (d.detach n).Linked where
  mem_children_iff := by
    intro p m
    rw [children_detach, parent?_detach]
    by_cases hm : m = n
    · subst hm
      by_cases hp : d.parent? m = some p
      · simp [hp, (h.nodup_children p).mem_erase_iff]
      · simp [hp, h.mem_children_iff]
    · rw [if_neg hm]
      split
      · exact (List.mem_erase_of_ne hm).trans h.mem_children_iff
      · exact h.mem_children_iff
  nodup_children p := by
    rw [children_detach]
    split
    · exact (h.nodup_children p).erase n
    · exact h.nodup_children p

/-- A node is taken out of all lists of children, since it is in no other one. -/
theorem Linked.children_detach (h : d.Linked) (n p : NodeId) : (d.detach n).children p = (d.children p).erase n := by
  rw [Document.children_detach]
  split
  · rfl
  · rename_i hp
    exact (List.erase_of_not_mem fun hmem => hp (h.mem_children_iff.1 hmem)).symm

theorem Forest.detach (hf : d.Forest) (n : NodeId) : (d.detach n).Forest where
  mem_children_iff := (hf.linked.detach n).mem_children_iff
  nodup_children := (hf.linked.detach n).nodup_children
  acyclic m h := by
    refine hf.acyclic m (Relation.TransGen.mono ?_ m m h)
    intro x y hxy
    rw [parent?_detach] at hxy
    split at hxy
    · simp at hxy
    · exact hxy
  parent?_root := by
    rw [parent?_detach, hf.parent?_root, ite_self]
  size_pos := by
    rw [size_detach]
    exact hf.size_pos

theorem grows_detach (d : Document) (n : NodeId) : d.Grows (d.detach n) where
  toKeeps := keeps_detach d n
  parent? {m} _ := by
    rw [parent?_detach]
    split
    · exact .inr rfl
    · exact .inl rfl
  forest hf := hf.detach n

/-! ### Places -/

/-- The last child has its place at the end of the others. -/
theorem getLast?_append_cons_iff {before after : List NodeId} (h : target ∉ after) :
    (before ++ target :: after).getLast? = some target ↔ after = [] := by
  rw [List.getLast?_append_cons]
  cases after with
  | nil => simp
  | cons first rest =>
    have hlast : (target :: first :: rest).getLast? = some ((first :: rest).getLast (by simp)) := rfl
    rw [hlast, Option.some_inj]
    exact ⟨fun he => absurd (he ▸ List.getLast_mem _) h, fun he => by simp at he⟩

/--
The place of a target is there when the target and another node were taken out, unless the target was the last child
and the other one was a child too.
-/
theorem Linked.index_le_iff (h : d.Linked) (hne : e ≠ target) (hplace : d.place? target = some (p, index)) :
    index ≤ (((d.detach target).detach e).children p).length ↔
      ¬ (d.parent? e = some p ∧ (d.children p).getLast? = some target) := by
  obtain ⟨q, hq, heq⟩ := Option.map_eq_some_iff.1 hplace
  obtain ⟨rfl, rfl⟩ := Prod.mk.inj heq
  obtain ⟨before, after, hsplit⟩ := List.append_of_mem (h.mem_children_iff.2 hq)
  have hout : target ∉ before ++ after :=
    (List.nodup_cons.1 (List.nodup_middle.1 (hsplit ▸ h.nodup_children q))).1
  rw [List.mem_append, not_or] at hout
  have hindex : (d.children q).idxOf target = before.length := by
    rw [hsplit, List.idxOf_append, if_neg hout.1, List.idxOf_cons_self, Nat.zero_add]
  have hrest : ((d.detach target).detach e).children q = (before ++ after).erase e := by
    rw [(h.detach target).children_detach, h.children_detach, hsplit, List.erase_append_right _ hout.1,
      List.erase_cons_head]
  have hmem : d.parent? e = some q ↔ e ∈ before ++ after := by
    rw [← h.mem_children_iff, hsplit]
    simp [hne]
  rw [hindex, hrest, hmem, hsplit, getLast?_append_cons_iff hout.2, List.length_erase]
  by_cases he : e ∈ before ++ after
  · have hpos : 0 < (before ++ after).length := List.length_pos_of_mem he
    rw [List.length_append] at hpos
    rw [if_pos he, List.length_append, and_iff_right he, ← List.length_eq_zero_iff]
    omega
  · simp [he]

/-- The place is there if the other node does not come before the target. -/
theorem Linked.index_le (h : d.Linked) (hne : e ≠ target) (hlater : ¬ [e, target].Sublist (d.children p))
    (hplace : d.place? target = some (p, index)) : index ≤ (((d.detach target).detach e).children p).length := by
  refine (h.index_le_iff hne hplace).2 ?_
  rintro ⟨he, hlast⟩
  obtain ⟨init, hinit⟩ := List.getLast?_eq_some_iff.1 hlast
  have hmem : e ∈ init := by
    have hchild := h.mem_children_iff.2 he
    rw [hinit] at hchild
    simpa [hne] using hchild
  rw [hinit] at hlater
  exact hlater ((List.singleton_sublist.2 hmem).append (List.Sublist.refl [target]))

/-! ### Attaching -/

theorem keeps_attachAt (d : Document) (p c : NodeId) (index : Nat) : d.Keeps (d.attachAt p c index) := by
  unfold attachAt
  refine Keeps.trans (Keeps.trans (keeps_detach d c) (keeps_modify ?_)) (keeps_modify ?_)
  · exact fun _ => ⟨rfl, rfl, rfl⟩
  · exact fun _ => ⟨rfl, rfl, rfl⟩

/-- What is attached is detached first. -/
theorem attachAt_detach (d : Document) (p c : NodeId) (index : Nat) :
    (d.detach c).attachAt p c index = d.attachAt p c index := by
  have hnone : (d.detach c).parent? c = none := by rw [parent?_detach, if_pos rfl]
  unfold attachAt
  rw [detach_of_parent?_eq_none hnone]

/-- The last place is the one after all other children. -/
theorem attachLast_eq (d : Document) (p c : NodeId) :
    d.attachLast p c = d.attachAt p c ((d.detach c).children p).length := by
  unfold attachLast attachAt
  congr 1
  apply modify_congr
  intro node hn
  simp [children, hn]

theorem parent?_attachAt (hc : c < d.size) (index : Nat) :
    (d.attachAt p c index).parent? m = if m = c then some p else d.parent? m := by
  unfold attachAt
  rw [parent?_modify]
  by_cases h : c = m
  · subst h
    rw [if_pos rfl, if_pos rfl]
    cases hn : (((d.detach c).modify p fun node =>
        { node with children := node.children.take index ++ c :: node.children.drop index }).node? c) with
    | some node => rfl
    | none =>
      rw [node?_eq_none_iff, size_modify, size_detach] at hn
      exact absurd hc (Nat.not_lt.2 hn)
  · rw [if_neg h, if_neg (Ne.symm h), parent?_modify_of_eq, parent?_detach, if_neg (Ne.symm h)]
    exact fun _ => rfl

theorem insertIdx_eq_take_append {cs : List NodeId} (h : index ≤ cs.length) :
    cs.insertIdx index c = cs.take index ++ c :: cs.drop index := by
  induction cs generalizing index with
  | nil =>
    obtain rfl := Nat.le_zero.1 h
    rfl
  | cons first rest ih =>
    cases index with
    | zero => rfl
    | succ index =>
      rw [List.insertIdx_succ_cons, ih (Nat.le_of_succ_le_succ h)]
      rfl

theorem children_attachAt (hp : p < d.size) (index : Nat) :
    (d.attachAt p c index).children q =
      if q = p then ((d.detach c).children p).take index ++ c :: ((d.detach c).children p).drop index
      else (d.detach c).children q := by
  unfold attachAt
  rw [children_modify_of_eq, children_modify]
  swap
  · exact fun _ => rfl
  by_cases h : p = q
  · subst h
    rw [if_pos rfl, if_pos rfl]
    unfold children
    cases hn : (d.detach c).node? p with
    | some node => rfl
    | none =>
      rw [node?_eq_none_iff, size_detach] at hn
      exact absurd hp (Nat.not_lt.2 hn)
  · rw [if_neg h, if_neg (Ne.symm h)]

/-- At a place that there is the child is inserted. -/
theorem children_attachAt_of_le (hp : p < d.size) (h : index ≤ ((d.detach c).children p).length) :
    (d.attachAt p c index).children q =
      if q = p then ((d.detach c).children p).insertIdx index c else (d.detach c).children q := by
  rw [children_attachAt hp, insertIdx_eq_take_append h]

/-- Attaching a node gives no way up that goes round, unless the node is above its new parent. -/
private theorem acyclic_attach {r r' : NodeId → NodeId → Prop} (hr : ∀ n, ¬ Relation.TransGen r n n)
    (hedge : ∀ x y, r' x y → r x y ∨ (x = c ∧ y = p)) (hcp : ¬ Relation.ReflTransGen r p c) (n : NodeId) :
    ¬ Relation.TransGen r' n n := by
  -- a way to `c` can stop at the first `c`, before the new edge
  have old : ∀ x, Relation.ReflTransGen r' x c → Relation.ReflTransGen r x c := by
    intro x hx
    induction hx using Relation.ReflTransGen.head_induction_on with
    | refl => exact .refl
    | head hxy _ ih =>
      rcases hedge _ _ hxy with h | ⟨rfl, -⟩
      · exact .head h ih
      · exact .refl
  have split : ∀ x y, Relation.TransGen r' x y →
      Relation.TransGen r x y ∨ (Relation.ReflTransGen r' x c ∧ Relation.ReflTransGen r' p y) := by
    intro x y hxy
    induction hxy using Relation.TransGen.head_induction_on with
    | single hxy =>
      rcases hedge _ _ hxy with h | ⟨rfl, rfl⟩
      · exact .inl (.single h)
      · exact .inr ⟨.refl, .refl⟩
    | head hxz hzy ih =>
      rcases hedge _ _ hxz with h | ⟨rfl, rfl⟩
      · rcases ih with ih | ⟨hzc, hpy⟩
        · exact .inl (.head h ih)
        · exact .inr ⟨.head hxz hzc, hpy⟩
      · exact .inr ⟨.refl, hzy.to_reflTransGen⟩
  intro h
  rcases split n n h with h | ⟨hnc, hpn⟩
  · exact hr n h
  · exact hcp (old p (hpn.trans hnc))

theorem Linked.attachAt (h : d.Linked) (hp : p < d.size) (hc : c < d.size) (index : Nat) :
    (d.attachAt p c index).Linked where
  mem_children_iff := by
    intro q m
    rw [children_attachAt hp, parent?_attachAt hc]
    have h0 : ∀ q, m ∈ (d.detach c).children q ↔ m ≠ c ∧ d.parent? m = some q := by
      intro q
      rw [(h.detach c).mem_children_iff, parent?_detach]
      split
      · rename_i he
        simp [he]
      · rename_i he
        simp [he]
    have hm : m ∈ ((d.detach c).children p).take index ++ c :: ((d.detach c).children p).drop index ↔
        m = c ∨ m ∈ (d.detach c).children p := by
      conv => rhs; rw [← List.take_append_drop index ((d.detach c).children p)]
      simp only [List.mem_append, List.mem_cons]
      exact or_left_comm
    by_cases hq : q = p
    · subst hq
      rw [if_pos rfl, hm, h0]
      by_cases he : m = c <;> simp [he]
    · rw [if_neg hq, h0]
      by_cases he : m = c
      · simp [he, Ne.symm hq]
      · simp [he]
  nodup_children q := by
    rw [children_attachAt hp]
    split
    · refine List.perm_middle.nodup_iff.2 ?_
      rw [List.take_append_drop]
      refine List.nodup_cons.2 ⟨?_, (h.detach c).nodup_children p⟩
      rw [(h.detach c).mem_children_iff, parent?_detach]
      simp
    · exact (h.detach c).nodup_children q

theorem Forest.acyclic_attachAt (hf : d.Forest) (hc : c < d.size) (hcp : ¬ d.Above c p) (index : Nat) (n : NodeId) :
    ¬ (d.attachAt p c index).ProperlyAbove n n := by
  refine acyclic_attach hf.acyclic ?_ hcp n
  intro x y hxy
  rw [parent?_attachAt hc] at hxy
  split at hxy
  · rename_i hx
    exact .inr ⟨hx, (Option.some.inj hxy).symm⟩
  · exact .inl hxy

theorem Forest.attachAt (hf : d.Forest) (hp : p < d.size) (hc : c < d.size) (hroot : c ≠ root)
    (hcp : ¬ d.Above c p) (index : Nat) : (d.attachAt p c index).Forest where
  mem_children_iff := (hf.linked.attachAt hp hc index).mem_children_iff
  nodup_children := (hf.linked.attachAt hp hc index).nodup_children
  acyclic := hf.acyclic_attachAt hc hcp index
  parent?_root := by
    rw [parent?_attachAt hc, if_neg (Ne.symm hroot)]
    exact hf.parent?_root
  size_pos := by
    rw [size_attachAt]
    exact hf.size_pos

end PageBindings.Document
