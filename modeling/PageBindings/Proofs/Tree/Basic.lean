import Mathlib.Data.List.Basic
import PageBindings.Binding.Action

/-!
# Ordered trees and grafts

A patch acts on the tree of a document as a graft: at every node that it hits, it puts a tree in the place of the node
or among its children, or takes the node away with all that is below it (`Graft`, `Tree.graft`).  Two grafts that hit
different nodes, and nothing in the trees that they put in, commute (`Tree.graft_comm`).  The nodes that a graft
leaves in place stay in document order (`Tree.filter_labels_graft`).  If a swap hits the first node of some kind, then
the first one of its scion is the first after it (`Tree.find?_labels_graft`).
-/

namespace PageBindings

/-- An ordered tree with a label at each node. -/
inductive Tree (α : Type) where
  | node (label : α) (children : List (Tree α))

namespace Tree

variable {α β : Type}

/-- The label at the root. -/
def label : Tree α → α
  | .node label _ => label

/-- What holds of a tree if it holds of its children holds of every tree. -/
@[elab_as_elim]
theorem induction {motive : Tree α → Prop}
    (node : ∀ label children, (∀ c ∈ children, motive c) → motive (.node label children)) (t : Tree α) : motive t :=
  @Tree.rec α motive (fun children => ∀ c ∈ children, motive c) node (fun _ h => absurd h List.not_mem_nil)
    (fun _ _ hfirst hrest => List.forall_mem_cons.2 ⟨hfirst, hrest⟩) t

mutual

/-- Makes something of a tree from its label and from what is made of its children. -/
def fold (f : α → List β → β) : Tree α → β
  | .node label children => f label (foldAll f children)

/-- What is made of several trees. -/
def foldAll (f : α → List β → β) : List (Tree α) → List β
  | [] => []
  | t :: rest => fold f t :: foldAll f rest

end

theorem foldAll_eq (f : α → List β → β) (ts : List (Tree α)) : foldAll f ts = ts.map (fold f) := by
  induction ts with
  | nil => rfl
  | cons t rest ih => rw [foldAll, ih, List.map_cons]

/-- The labels of a tree, each node before its children. -/
def labels : Tree α → List α :=
  fold fun label parts => label :: parts.flatten

theorem labels_node (label : α) (children : List (Tree α)) :
    labels (.node label children) = label :: children.flatMap labels := by
  unfold labels
  rw [fold, foldAll_eq, List.flatMap_def]

end Tree

/-- What a patch of one kind does at the nodes that it hits; `scion` is the tree that it puts in. -/
structure Graft (α : Type) where
  kind : PatchKind
  hit : α → Bool
  scion : Tree α

namespace Graft

variable {α : Type}

/-- What a node becomes, given what its children have become. -/
def result (g : Graft α) (label : α) (children : List (Tree α)) : List (Tree α) :=
  if g.hit label then
    match g.kind with
    | .swap => [g.scion]
    | .append => [.node label (children ++ [g.scion])]
    | .prepend => [.node label (g.scion :: children)]
    | .remove => []
    | .reset => [.node label children]
  else [.node label children]

/-- Whether the graft takes away the nodes that it hits. -/
def clears (g : Graft α) : Bool :=
  g.kind == .swap || g.kind == .remove

theorem result_of_not_hit {g : Graft α} {label : α} (h : g.hit label = false) (children : List (Tree α)) :
    g.result label children = [.node label children] := by
  simp [result, h]

end Graft

namespace Tree

variable {α : Type} {g f : Graft α} {t : Tree α}

/-- What a tree becomes by a graft: a tree, or none if its root is taken away. -/
def graft (g : Graft α) : Tree α → List (Tree α) :=
  fold fun label parts => g.result label parts.flatten

theorem graft_node (g : Graft α) (label : α) (children : List (Tree α)) :
    graft g (.node label children) = g.result label (children.flatMap (graft g)) := by
  unfold graft
  rw [fold, foldAll_eq, List.flatMap_def]

/-- A graft that hits nothing in a tree leaves it as it is. -/
theorem graft_of_not_hit (h : ∀ label ∈ t.labels, g.hit label = false) : t.graft g = [t] := by
  induction t using Tree.induction with
  | node label children ih =>
    rw [labels_node, List.forall_mem_cons] at h
    have hchildren : children.flatMap (graft g) = children := by
      calc children.flatMap (graft g) = children.flatMap fun c => [c] :=
          List.flatMap_congr fun c hc => ih c hc fun a ha => h.2 a (List.mem_flatMap.2 ⟨c, hc, ha⟩)
        _ = children := List.flatMap_singleton' children
    rw [graft_node, hchildren, Graft.result_of_not_hit h.1]

/-- A graft that neither hits a label nor anything in a scion goes on below them. -/
private theorem flatMap_graft_result (hscion : g.scion.graft f = [g.scion]) {label : α} (hlabel : f.hit label = false)
    (children : List (Tree α)) :
    (g.result label children).flatMap (graft f) = g.result label (children.flatMap (graft f)) := by
  have hnode : ∀ cs : List (Tree α), graft f (.node label cs) = [.node label (cs.flatMap (graft f))] := by
    intro cs
    rw [graft_node, Graft.result_of_not_hit hlabel]
  unfold Graft.result
  split
  · cases g.kind with
    | swap => simp [hscion]
    | append => simp [hnode, hscion]
    | prepend => simp [hnode, hscion]
    | remove => rfl
    | reset => simp [hnode]
  · simp [hnode]

/-- Grafts that hit different labels, and nothing in each other's scions, commute. -/
theorem graft_comm (hdisjoint : ∀ label, g.hit label = true → f.hit label = false)
    (hg : g.scion.graft f = [g.scion]) (hf : f.scion.graft g = [f.scion]) (t : Tree α) :
    (t.graft g).flatMap (graft f) = (t.graft f).flatMap (graft g) := by
  induction t using Tree.induction with
  | node label children ih =>
    have hchildren : (children.flatMap (graft g)).flatMap (graft f) =
        (children.flatMap (graft f)).flatMap (graft g) := by
      rw [List.flatMap_assoc, List.flatMap_assoc]
      exact List.flatMap_congr ih
    rw [graft_node, graft_node]
    cases hlabel : f.hit label with
    | false =>
      rw [flatMap_graft_result hg hlabel, Graft.result_of_not_hit hlabel, List.flatMap_singleton, graft_node,
        hchildren]
    | true =>
      have hlabel' : g.hit label = false := by
        rw [Bool.eq_false_iff]
        exact fun hhit => absurd (hdisjoint label hhit) (by simp [hlabel])
      rw [flatMap_graft_result hf hlabel', Graft.result_of_not_hit hlabel', List.flatMap_singleton, graft_node,
        hchildren]

/-- One graft after the other, of the same kind and with the same scion, is one that hits what either hits. -/
theorem graft_graft {hit hit' : α → Bool} (hdisjoint : ∀ label, hit label = true → hit' label = false)
    (hscion : g.scion.graft { g with hit := hit' } = [g.scion]) (t : Tree α) :
    (t.graft { g with hit }).flatMap (graft { g with hit := hit' }) =
      t.graft { g with hit := fun label => hit label || hit' label } := by
  induction t using Tree.induction with
  | node label children ih =>
    have hchildren : (children.flatMap (graft { g with hit })).flatMap (graft { g with hit := hit' }) =
        children.flatMap (graft { g with hit := fun label => hit label || hit' label }) := by
      rw [List.flatMap_assoc]
      exact List.flatMap_congr ih
    rw [graft_node, graft_node]
    cases hlabel : hit label with
    | true =>
      rw [flatMap_graft_result (g := { g with hit }) hscion (hdisjoint label hlabel), hchildren]
      simp [Graft.result, hlabel]
    | false =>
      rw [Graft.result_of_not_hit hlabel, List.flatMap_singleton, graft_node, hchildren]
      simp [Graft.result, hlabel]

/-! ### What stays -/

/-- The labels that a graft does not take away, in document order. -/
def spared (g : Graft α) : Tree α → List α :=
  fold fun label parts => if g.clears && g.hit label then [] else label :: parts.flatten

theorem spared_node (g : Graft α) (label : α) (children : List (Tree α)) :
    spared g (.node label children) =
      if g.clears && g.hit label then [] else label :: children.flatMap (spared g) := by
  unfold spared
  rw [fold, foldAll_eq, List.flatMap_def]

/-- Of labels that a scion put in does not have, those that are spared are left, in the order that they had. -/
theorem filter_labels_graft {p : α → Bool}
    (hscion : g.kind.creates = true → ∀ label ∈ g.scion.labels, p label = false) (t : Tree α) :
    ((t.graft g).flatMap labels).filter p = (t.spared g).filter p := by
  have hnone : g.kind.creates = true → g.scion.labels.filter p = [] := fun hk =>
    List.filter_eq_nil_iff.2 fun label h => by simp [hscion hk label h]
  induction t using Tree.induction with
  | node label children ih =>
    have hchildren : ((children.flatMap (graft g)).flatMap labels).filter p =
        (children.flatMap (spared g)).filter p := by
      rw [List.flatMap_assoc, List.filter_flatMap, List.filter_flatMap]
      exact List.flatMap_congr ih
    have hkept : (label :: (children.flatMap (graft g)).flatMap labels).filter p =
        (label :: children.flatMap (spared g)).filter p := by
      rw [List.filter_cons, List.filter_cons, hchildren]
    rw [graft_node, spared_node]
    unfold Graft.result Graft.clears
    cases g.hit label with
    | false => simpa [labels_node] using hkept
    | true =>
      cases hk : g.kind with
      | swap => simp [hnone (by rw [hk]; rfl)]
      | remove => simp
      | append => simpa [labels_node, hnone (by rw [hk]; rfl), List.filter_cons] using hkept
      | prepend => simpa [labels_node, hnone (by rw [hk]; rfl), List.filter_cons] using hkept
      | reset => simpa [labels_node] using hkept

/-! ### What is found first -/

variable {p : α → Bool} {x s : α}

/-- Of trees next to each other the first one with a label of the kind that is looked for decides what is found. -/
private theorem find?_flatMap_graft (hhit : ∀ label, g.hit label = true → p label = true) {ts : List (Tree α)}
    (hgraft : ∀ t ∈ ts, t.labels.find? p = some x → ((t.graft g).flatMap labels).find? p = some s)
    (h : (ts.flatMap labels).find? p = some x) :
    (ts.flatMap fun t => (t.graft g).flatMap labels).find? p = some s := by
  induction ts with
  | nil => simp at h
  | cons t rest ih =>
    rw [List.forall_mem_cons] at hgraft
    rw [List.flatMap_cons, List.find?_append] at h ⊢
    cases hfirst : t.labels.find? p with
    | some y =>
      rw [hfirst, Option.some_or] at h
      rw [hgraft.1 (hfirst.trans h), Option.some_or]
    | none =>
      -- nothing is found in the first tree, which is not hit
      have hsame : t.graft g = [t] := by
        refine graft_of_not_hit fun label hlabel => ?_
        rw [Bool.eq_false_iff]
        exact fun hh => List.find?_eq_none.1 hfirst label hlabel (hhit label hh)
      rw [hfirst, Option.none_or] at h
      rw [hsame, List.flatMap_singleton, hfirst, Option.none_or]
      exact ih hgraft.2 h

/--
If what a swap hits is what is looked for, and is found first, then the first one in its scion is found after it.
-/
theorem find?_labels_graft (hkind : g.kind = .swap) (hhit : ∀ label, g.hit label = true → p label = true)
    (hscion : g.scion.labels.find? p = some s) (hx : g.hit x = true) (h : t.labels.find? p = some x) :
    ((t.graft g).flatMap labels).find? p = some s := by
  induction t using Tree.induction with
  | node label children ih =>
    rw [graft_node]
    cases hlabel : g.hit label with
    | true => simp [Graft.result, hlabel, hkind, hscion]
    | false =>
      have hp : p label = false := by
        rw [Bool.eq_false_iff]
        intro hp
        rw [labels_node, List.find?_cons, hp] at h
        rw [Option.some.inj h, hx] at hlabel
        exact Bool.noConfusion hlabel
      rw [labels_node, List.find?_cons, hp] at h
      rw [Graft.result_of_not_hit hlabel, List.flatMap_singleton, labels_node, List.find?_cons, hp,
        List.flatMap_assoc]
      exact find?_flatMap_graft hhit ih h

end Tree

end PageBindings
