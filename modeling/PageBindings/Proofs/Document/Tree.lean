import PageBindings.Proofs.Document.Ancestry
import PageBindings.Proofs.Tree.Basic

/-!
# The tree below a node

`Document.tree` is what hangs below a node of a document, as a tree with labels of any kind for the nodes.  In a
forest it consists of the trees of the children (`Forest.tree_eq`), and its labels are those of the node and of its
descendants (`Forest.labels_tree`), each of which occurs once (`Forest.nodup_descendants`).
-/

namespace PageBindings.Document

variable {α : Type} {d d' : Document} {a c m n p : NodeId}

/-- The tree below a node, at most `levels` down. -/
def treeWithin (d : Document) (label : NodeId → α) : Nat → NodeId → Tree α
  | 0, n => .node (label n) []
  | levels + 1, n => .node (label n) ((d.children n).map (treeWithin d label levels))

/-- The tree below a node, with labels. -/
def tree (d : Document) (label : NodeId → α) (n : NodeId) : Tree α :=
  d.treeWithin label d.size n

/-! ### Descending -/

/-- No way down from a node has more than `k` levels. -/
def Shallow (d : Document) (k : Nat) (n : NodeId) : Prop :=
  ∀ j m, d.Climbs j m n → j ≤ k

theorem Forest.shallow (hf : d.Forest) (n : NodeId) : d.Shallow d.size n :=
  fun _ _ h => hf.climbs_le h

theorem Forest.shallow_of_mem_children {k : Nat} (hf : d.Forest) (h : d.Shallow (k + 1) n) (hc : c ∈ d.children n) :
    d.Shallow k c :=
  fun j m hj => Nat.le_of_succ_le_succ (h (j + 1) m (climbs_succ_iff.2 ⟨c, hj, hf.mem_children_iff.1 hc⟩))

theorem Forest.children_eq_nil_of_shallow (hf : d.Forest) (h : d.Shallow 0 n) : d.children n = [] :=
  List.eq_nil_iff_forall_not_mem.2 fun c hc =>
    absurd (h 1 c ⟨n, hf.mem_children_iff.1 hc, rfl⟩) (Nat.not_succ_le_zero 0)

/-- What holds of a node if it holds of its children holds of every node. -/
@[elab_as_elim]
theorem Forest.induction {motive : NodeId → Prop} (hf : d.Forest)
    (node : ∀ n, (∀ c ∈ d.children n, motive c) → motive n) (n : NodeId) : motive n := by
  have hshallow := hf.shallow n
  generalize d.size = k at hshallow
  induction k generalizing n with
  | zero =>
    refine node n fun c hc => ?_
    rw [hf.children_eq_nil_of_shallow hshallow] at hc
    exact absurd hc List.not_mem_nil
  | succ k ih => exact node n fun c hc => ih c (hf.shallow_of_mem_children hshallow hc)

/-- Going one level further down than there is anything makes no difference. -/
private theorem Forest.treeWithin_succ (hf : d.Forest) {k : Nat} (h : d.Shallow k n) (label : NodeId → α) :
    d.treeWithin label (k + 1) n = d.treeWithin label k n := by
  induction k generalizing n with
  | zero => rw [treeWithin, treeWithin, hf.children_eq_nil_of_shallow h, List.map_nil]
  | succ k ih =>
    rw [treeWithin, treeWithin]
    exact congrArg (Tree.node (label n)) (List.map_congr_left fun c hc => ih (hf.shallow_of_mem_children h hc))

theorem Forest.tree_eq (hf : d.Forest) (label : NodeId → α) (n : NodeId) :
    d.tree label n = .node (label n) ((d.children n).map (d.tree label)) :=
  (hf.treeWithin_succ (hf.shallow n) label).symm

private theorem Forest.descendantsWithin_succ (hf : d.Forest) {k : Nat} (h : d.Shallow k n) :
    d.descendantsWithin (k + 1) n = d.descendantsWithin k n := by
  induction k generalizing n with
  | zero => rw [descendantsWithin, descendantsWithin, hf.children_eq_nil_of_shallow h, List.flatMap_nil]
  | succ k ih =>
    rw [descendantsWithin, descendantsWithin]
    exact List.flatMap_congr fun c hc => congrArg (c :: ·) (ih (hf.shallow_of_mem_children h hc))

theorem Forest.descendants_eq (hf : d.Forest) (n : NodeId) :
    d.descendants n = (d.children n).flatMap fun c => c :: d.descendants c :=
  (hf.descendantsWithin_succ (hf.shallow n)).symm

/-! ### Labels -/

theorem Forest.labels_tree (hf : d.Forest) (label : NodeId → α) (n : NodeId) :
    (d.tree label n).labels = (n :: d.descendants n).map label := by
  induction n using hf.induction with
  | node n ih =>
    rw [hf.tree_eq, Tree.labels_node, hf.descendants_eq, List.map_cons, List.map_flatMap, List.flatMap_map]
    exact congrArg (label n :: ·) (List.flatMap_congr ih)

theorem Forest.mem_cons_descendants_iff (hf : d.Forest) : m ∈ n :: d.descendants n ↔ d.Above n m := by
  rw [List.mem_cons, hf.mem_descendants_iff, above_iff_eq_or_properlyAbove, eq_comm]

/-- A label of the tree is one of a node at or below its root. -/
theorem Forest.mem_labels_tree_iff (hf : d.Forest) {label : NodeId → α} {x : α} :
    x ∈ (d.tree label n).labels ↔ ∃ m, d.Above n m ∧ label m = x := by
  rw [hf.labels_tree, List.mem_map]
  exact exists_congr fun m => and_congr_left fun _ => hf.mem_cons_descendants_iff

/-- Labels that are not at or below a node that a graft takes away are spared. -/
theorem Forest.filter_spared (hf : d.Forest) {label : NodeId → α} {g : Graft α} {p : α → Bool}
    (h : g.clears = true → ∀ a m, d.Above n a → g.hit (label a) = true → d.Above a m → p (label m) = false) :
    ((d.tree label n).spared g).filter p = (d.tree label n).labels.filter p := by
  induction n using hf.induction with
  | node n ih =>
    cases hcut : g.clears && g.hit (label n) with
    | true =>
      obtain ⟨hclears, hhit⟩ := (Bool.and_eq_true _ _).mp hcut
      have hnone : (d.tree label n).labels.filter p = [] := by
        refine List.filter_eq_nil_iff.2 fun x hx => ?_
        obtain ⟨m, hm, rfl⟩ := hf.mem_labels_tree_iff.1 hx
        simp [h hclears n m (Above.refl d n) hhit hm]
      rw [hnone, hf.tree_eq, Tree.spared_node, hcut]
      rfl
    | false =>
      have hchildren : (((d.children n).map (d.tree label)).flatMap (Tree.spared g)).filter p =
          (((d.children n).map (d.tree label)).flatMap Tree.labels).filter p := by
        rw [List.filter_flatMap, List.filter_flatMap, List.flatMap_map, List.flatMap_map]
        refine List.flatMap_congr fun c hc => ih c hc fun hclears a m ha => h hclears a m ?_
        exact (Above.of_parent? (hf.mem_children_iff.1 hc) (Above.refl d n)).trans ha
      rw [hf.tree_eq, Tree.spared_node, Tree.labels_node, hcut, List.filter_cons, ← hchildren, ← List.filter_cons]
      rfl

/-- Only the labels of the nodes in the tree matter. -/
theorem Forest.tree_congr (hf : d.Forest) {label label' : NodeId → α} (h : ∀ m, d.Above n m → label m = label' m) :
    d.tree label n = d.tree label' n := by
  induction n using hf.induction with
  | node n ih =>
    rw [hf.tree_eq, hf.tree_eq, h n (Above.refl d n)]
    refine congrArg (Tree.node (label' n)) (List.map_congr_left fun c hc => ih c hc fun m hm => h m ?_)
    exact (Above.of_parent? (hf.mem_children_iff.1 hc) (Above.refl d n)).trans hm

/-- Trees of two documents are the same if one can number the nodes of the one by those of the other. -/
theorem Forest.tree_eq_of_children (hf : d.Forest) (hf' : d'.Forest) {number : NodeId → NodeId} {label : NodeId → α}
    (h : ∀ m, d.Above n m → d'.children (number m) = (d.children m).map number) :
    d'.tree label (number n) = d.tree (label ∘ number) n := by
  induction n using hf.induction with
  | node n ih =>
    rw [hf.tree_eq, hf'.tree_eq, h n (Above.refl d n), List.map_map]
    refine congrArg (Tree.node (label (number n))) (List.map_congr_left fun c hc => ih c hc fun m hm => h m ?_)
    exact (Above.of_parent? (hf.mem_children_iff.1 hc) (Above.refl d n)).trans hm

/-! ### Each node once -/

/-- Of two nodes above a third one, one is above the other. -/
theorem above_or_above (ha : d.Above a n) (hm : d.Above m n) : d.Above a m ∨ d.Above m a := by
  induction ha using Relation.ReflTransGen.head_induction_on with
  | refl => exact .inr hm
  | head hp ha ih =>
    rcases above_iff.1 hm with rfl | ⟨q, hq, hm⟩
    · exact .inl (Above.of_parent? hp ha)
    · obtain rfl := Option.some.inj (hp.symm.trans hq)
      exact ih hm

/-- Nothing is below two children of one node. -/
theorem Forest.children_apart (hf : d.Forest) (ha : d.parent? a = some p) (hc : d.parent? c = some p)
    (han : d.Above a n) (hcn : d.Above c n) : a = c := by
  have hbelow : ∀ x y, d.parent? x = some p → d.parent? y = some p → d.Above x y → x = y := by
    intro x y hx hy h
    rcases above_iff.1 h with rfl | ⟨q, hq, h⟩
    · rfl
    · obtain rfl := Option.some.inj (hy.symm.trans hq)
      exact absurd (properlyAbove_iff.2 ⟨p, hx, h⟩) (hf.acyclic x)
  rcases above_or_above han hcn with h | h
  · exact hbelow a c ha hc h
  · exact (hbelow c a hc ha h).symm

theorem Forest.nodup_descendants (hf : d.Forest) (n : NodeId) : (n :: d.descendants n).Nodup := by
  induction n using hf.induction with
  | node n ih =>
    refine List.nodup_cons.2 ⟨fun h => hf.acyclic n (hf.mem_descendants_iff.1 h), ?_⟩
    rw [hf.descendants_eq, List.nodup_flatMap]
    refine ⟨ih, (hf.nodup_children n).imp_of_mem fun {a c} ha hc hne => ?_⟩
    exact fun m hma hmc => hne (hf.children_apart (hf.mem_children_iff.1 ha) (hf.mem_children_iff.1 hc)
      (hf.mem_cons_descendants_iff.1 hma) (hf.mem_cons_descendants_iff.1 hmc))

end PageBindings.Document
