import PageBindings.Proofs.Document.Reading

/-!
# The numbers of what reading markup adds

Nodes are numbered as they are opened, so that going through the new trees, each node before its children, is counting
(`preorder_read`).  A builder keeps this up because it adds to the right edge of its trees only: its open elements are
the last root, the last child of this, and so on (`Builder.Numbered`).
-/

namespace PageBindings

namespace Document

/-- The trees of the nodes have the numbers from `low` to below `high`, each node before its children, in order. -/
inductive Counts (d : Document) : Nat → List Nat → Nat → Prop where
  | nil (low : Nat) : Counts d low [] low
  | cons {n mid high : Nat} {rest : List Nat} (below : Counts d (n + 1) (d.children n) mid)
      (after : Counts d mid rest high) : Counts d n (n :: rest) high

/-- A path that begins with the last of the nodes and goes on with the last child each time. -/
def IsEdge (d : Document) : List Nat → List Nat → Prop
  | _, [] => True
  | nodes, n :: path => nodes.getLast? = some n ∧ IsEdge d (d.children n) path

variable {d d' : Document} {low mid high levels n c p : Nat} {nodes path more : List Nat}

theorem Counts.le (h : d.Counts low nodes high) : low ≤ high := by
  induction h with
  | nil low => exact Nat.le_refl _
  | cons below after ihBelow ihAfter => omega

theorem Counts.congr (h : d.Counts low nodes high)
    (hchildren : ∀ m, low ≤ m → m < high → d'.children m = d.children m) :
    d'.Counts low nodes high := by
  induction h with
  | nil low => exact .nil low
  | @cons n mid high rest below after ihBelow ihAfter =>
    have hmid := below.le
    have hhigh := after.le
    refine .cons ?_ (ihAfter fun m hlow hm => hchildren m (by omega) hm)
    rw [hchildren n (Nat.le_refl _) (by omega)]
    exact ihBelow fun m hlow hm => hchildren m (by omega) (by omega)

theorem counts_concat :
    d.Counts low (nodes ++ [n]) high ↔ d.Counts low nodes n ∧ d.Counts (n + 1) (d.children n) high := by
  constructor
  · intro h
    induction nodes generalizing low with
    | nil =>
      cases h with
      | cons below after =>
        cases after
        exact ⟨.nil _, below⟩
    | cons m rest ih =>
      cases h with
      | cons below after =>
        obtain ⟨hrest, hlast⟩ := ih after
        exact ⟨.cons below hrest, hlast⟩
  · rintro ⟨hrest, hlast⟩
    induction nodes generalizing low with
    | nil =>
      cases hrest
      exact .cons hlast (.nil _)
    | cons m rest ih =>
      cases hrest with
      | cons below after => exact .cons below (ih after)

/-- Counting is going through the trees. -/
theorem Counts.flatMap_eq (h : d.Counts low nodes high) (hlevels : high - low ≤ levels) :
    nodes.flatMap (fun n => n :: d.descendantsWithin levels n) = List.range' low (high - low) := by
  induction h generalizing levels with
  | nil low => simp
  | @cons n mid high rest below after ihBelow ihAfter =>
    have hmid := below.le
    have hhigh := after.le
    obtain ⟨levels, rfl⟩ : ∃ fewer, levels = fewer + 1 := ⟨levels - 1, by omega⟩
    have hbelow := ihBelow (show mid - (n + 1) ≤ levels by omega)
    have hafter := ihAfter (show high - mid ≤ levels + 1 by omega)
    have hfirst : n :: d.descendantsWithin (levels + 1) n = n :: List.range' (n + 1) (mid - (n + 1)) :=
      congrArg (n :: ·) hbelow
    have hcount : high - n = (mid - (n + 1)) + (high - mid) + 1 := by omega
    have hmid' : mid = n + 1 + (mid - (n + 1)) := by omega
    rw [List.flatMap_cons, hafter, hfirst, hcount, List.range'_succ, ← List.range'_append_1, ← hmid',
      List.cons_append]

/-! ### The right edge -/

theorem IsEdge.of_append (h : d.IsEdge nodes (path ++ more)) : d.IsEdge nodes path := by
  induction path generalizing nodes with
  | nil => trivial
  | cons n path ih => exact ⟨h.1, ih h.2⟩

/-- A path along the edge stays within the numbers of the trees. -/
theorem Counts.bounds_of_mem_edge (h : d.Counts low nodes high) (hedge : d.IsEdge nodes path) (hn : n ∈ path) :
    low ≤ n ∧ n < high := by
  induction path generalizing low nodes with
  | nil => simp at hn
  | cons m path ih =>
    obtain ⟨others, rfl⟩ := List.getLast?_eq_some_iff.1 hedge.1
    obtain ⟨hothers, hlast⟩ := counts_concat.1 h
    have hlow := hothers.le
    have hhigh := hlast.le
    rcases List.mem_cons.1 hn with rfl | hn
    · omega
    · have hbounds := ih hlast hedge.2 hn
      omega

theorem Counts.addRoot (h : d.Counts low nodes c)
    (hchildren : ∀ m : Nat, d'.children m = if m = c then [] else d.children m) :
    d'.Counts low (nodes ++ [c]) (c + 1) := by
  rw [counts_concat, hchildren c, if_pos rfl]
  refine ⟨h.congr fun m hlow hm => ?_, .nil _⟩
  rw [hchildren m, if_neg (by omega)]

/-- A new last child of the end of the edge: it has the next number, and the edge goes on to it. -/
theorem Counts.addChild (h : d.Counts low nodes c) (hedge : d.IsEdge nodes (path ++ [p]))
    (hchildren : ∀ m : Nat,
      d'.children m = if m = p then d.children m ++ [c] else if m = c then [] else d.children m) :
    d'.Counts low nodes (c + 1) ∧ d'.IsEdge nodes (path ++ [p, c]) := by
  have hsame : ∀ m, m ≠ p → m ≠ c → d'.children m = d.children m := by
    intro m hp hc
    rw [hchildren m, if_neg hp, if_neg hc]
  induction path generalizing low nodes with
  | nil =>
    obtain ⟨others, rfl⟩ := List.getLast?_eq_some_iff.1 hedge.1
    obtain ⟨hothers, hlast⟩ := counts_concat.1 h
    have hp := hlast.le
    have hnone : d'.children c = [] := by rw [hchildren c, if_neg (by omega), if_pos rfl]
    have hmore : d'.children p = d.children p ++ [c] := by rw [hchildren p, if_pos rfl]
    have hothers' : d'.Counts low others p := hothers.congr fun m _ hm => hsame m (by omega) (by omega)
    have hlast' : d'.Counts (p + 1) (d.children p) c := hlast.congr fun m hm _ => hsame m (by omega) (by omega)
    constructor
    · rw [counts_concat, hmore, counts_concat, hnone]
      exact ⟨hothers', hlast', .nil _⟩
    · refine ⟨hedge.1, ?_, trivial⟩
      rw [hmore, List.getLast?_concat]
  | cons q path ih =>
    have hp := h.bounds_of_mem_edge hedge (List.mem_append_right (q :: path) List.mem_cons_self)
    obtain ⟨others, rfl⟩ := List.getLast?_eq_some_iff.1 hedge.1
    obtain ⟨hothers, hlast⟩ := counts_concat.1 h
    obtain ⟨hcounts, hpath⟩ := ih hlast hedge.2
    have hbelow := hlast.bounds_of_mem_edge hedge.2 (List.mem_append_right path List.mem_cons_self)
    have hq : d'.children q = d.children q := hsame q (by omega) (by omega)
    have hothers' : d'.Counts low others q := hothers.congr fun m _ hm => hsame m (by omega) (by omega)
    constructor
    · rw [counts_concat, hq]
      exact ⟨hothers', hcounts⟩
    · refine ⟨hedge.1, ?_⟩
      rw [hq]
      exact hpath

theorem IsEdge.congr (h : d.IsEdge nodes path) (hchildren : ∀ m, d'.children m = d.children m) :
    d'.IsEdge nodes path := by
  induction path generalizing nodes with
  | nil => trivial
  | cons n path ih =>
    refine ⟨h.1, ?_⟩
    rw [hchildren]
    exact ih h.2

theorem children_size (d : Document) : d.children d.size = [] := by
  unfold children
  rw [node?_eq_none_iff.2 (Nat.le_refl _)]
  rfl

theorem children_add_attachLast {tag : String} {attributes : List (String × String)} (hp : p < d.size) (m : Nat) :
    ((d.add tag attributes).attachLast p d.size).children m =
      if m = p then d.children m ++ [d.size] else if m = d.size then [] else d.children m := by
  have hne : p ≠ d.size := Nat.ne_of_lt hp
  have hnode := node?_attachLast (parent?_add_size d tag attributes) hne m
  rw [← children_add d tag attributes m]
  unfold children
  rw [hnode]
  by_cases hsize : m = d.size
  · subst hsize
    rw [if_pos rfl, if_neg (Ne.symm hne), if_pos rfl, node?_add, if_pos rfl]
    rfl
  · rw [if_neg hsize, if_neg hsize]
    by_cases hmp : m = p
    · subst hmp
      rw [if_pos rfl, if_pos rfl, node?_add, if_neg hsize]
      cases hm : d.node? m with
      | none => exact absurd (node?_eq_none_iff.1 hm) (Nat.not_le.2 hp)
      | some node => rfl
    · rw [if_neg hmp, if_neg hmp]

end Document

namespace Markup.Builder

open Document

/-- The new nodes are numbered as they come, and the open elements are the right edge of the trees. -/
structure Numbered (first : Nat) (b : Builder) : Prop where
  counts : b.document.Counts first b.roots.reverse b.document.size
  edge : b.document.IsEdge b.roots.reverse b.stack.reverse

variable {first : Nat} {b : Builder}

theorem Numbered.start (d : Document) : Numbered d.size { document := d, stack := [], roots := [] } :=
  ⟨.nil _, trivial⟩

/-- An element that is left open is at the end of the edge, and otherwise the edge ends before it. -/
private theorem edge_openElement {d : Document} {nodes path : List Nat} {c : Nat} {closed : Bool}
    (h : d.IsEdge nodes (path ++ [c])) {stack : List Nat} (hstack : stack.reverse = path) :
    d.IsEdge nodes (if closed then stack else c :: stack).reverse := by
  subst hstack
  cases closed with
  | true => exact h.of_append
  | false => simpa using h

theorem Numbered.openElement (h : Numbered first b) (tag : String) (attributes : List (String × String))
    (selfClosing : Bool) : Numbered first (b.openElement tag attributes selfClosing) := by
  unfold Builder.openElement
  dsimp only
  split
  · rename_i hs
    have hchildren : ∀ m : Nat, (b.document.add tag attributes).children m =
        if m = b.document.size then [] else b.document.children m := by
      intro m
      rw [children_add]
      split
      · rename_i hm
        rw [hm, children_size]
      · rfl
    have hcounts := h.counts.addRoot hchildren
    refine ⟨?_, edge_openElement ?_ (show b.stack.reverse = [] by rw [hs]; rfl)⟩
    · rw [size_add, List.reverse_cons]
      exact hcounts
    · rw [List.reverse_cons]
      exact ⟨List.getLast?_concat, trivial⟩
  · rename_i p outer hs
    have hedge : b.document.IsEdge b.roots.reverse (outer.reverse ++ [p]) := by
      rw [← List.reverse_cons, ← hs]
      exact h.edge
    have hp := (h.counts.bounds_of_mem_edge hedge (List.mem_append_right _ List.mem_cons_self)).2
    obtain ⟨hcounts, hpath⟩ := h.counts.addChild hedge (children_add_attachLast hp)
    refine ⟨?_, edge_openElement ?_ (show b.stack.reverse = outer.reverse ++ [p] by rw [hs, List.reverse_cons])⟩
    · rw [size_attachLast, size_add]
      exact hcounts
    · rw [List.append_assoc]
      exact hpath

theorem Numbered.step (h : Numbered first b) (token : Token) : Numbered first (b.step token) := by
  cases token with
  | text text =>
    unfold Builder.step
    dsimp only
    split
    · exact h
    · rename_i p outer hs
      have hchildren : ∀ m, (b.document.addText p text).children m = b.document.children m :=
        fun m => children_modify_of_eq fun _ => rfl
      refine ⟨?_, h.edge.congr hchildren⟩
      rw [show (b.document.addText p text).size = b.document.size from size_modify _ _ _]
      exact h.counts.congr fun m _ _ => hchildren m
  | opening tag attributes selfClosing => exact h.openElement tag attributes selfClosing
  | closing tag =>
    refine ⟨h.counts, ?_⟩
    show b.document.IsEdge b.roots.reverse ((closeElement b.document tag b.stack).getD b.stack).reverse
    cases hclose : closeElement b.document tag b.stack with
    | none => exact h.edge
    | some outer =>
      obtain ⟨inner, hinner⟩ := closeElement_suffix hclose
      have hedge := h.edge
      rw [← hinner, List.reverse_append] at hedge
      exact hedge.of_append

theorem Numbered.steps (h : Numbered first b) (tokens : List Token) :
    Numbered first (tokens.foldl Builder.step b) := by
  induction tokens generalizing b with
  | nil => exact h
  | cons token rest ih => exact ih (h.step token)

end Markup.Builder

namespace Document

/-- The trees that reading adds have the new numbers, in the order in which one goes through them. -/
theorem preorder_read (d : Document) (markup : String) :
    (d.read markup).2.flatMap (fun n => n :: (d.read markup).1.descendants n) =
      List.range' d.size ((d.read markup).1.size - d.size) := by
  have h := (Markup.Builder.Numbered.start d).steps (Markup.tokens markup)
  exact h.counts.flatMap_eq (Nat.sub_le _ _)

end Document

end PageBindings
