import Mathlib.Algebra.Order.BigOperators.Group.List
import Mathlib.Algebra.Order.Group.Nat
import PageBindings.Json.Rebuild
import PageBindings.Proofs.Json.RoundTrip
import PageBindings.Proofs.Tree.Basic

/-!
# Walks over a value

The nodes that a rebuilding goes through form a tree: below each node are the parts of what the transformation gave to
go into (`Unfolds`), and the transformation is called on one node after the other, in the order of the labels of the
tree, until it fails (`Calls`).  If what is gone into never has more nodes than the node that it stands for, then
there is such a walk over every value, with at most as many stops as the value has nodes (`exists_walk`).  The nodes
on which the transformation is called are those up to the failure (`Calls.visited_eq`, `Calls.exists_fault`), and the
members of objects come in the order of their names (`Unfolds.isSorted`).
-/

namespace PageBindings.Json

/-! ### Parts -/

/-- The parts of a value, in order: the items of an array, the values of the members of an object. -/
def parts : Json → List Json
  | .array items => items
  | .object members => members.map (·.2)
  | _ => []

/-- The value with other parts, under the names that it has. -/
def withParts : Json → List Json → Json
  | .array _, parts => .array parts
  | .object members, parts => .object ((members.map (·.1)).zip parts)
  | value, _ => value

/-- The names of the members of an object, in order. -/
def names : Json → List String
  | .object members => members.map (·.1)
  | _ => []

/-- An array keeps its length and an object its names. -/
theorem names_withParts {v : Json} {ps : List Json} (h : ps.length = v.parts.length) :
    (v.withParts ps).names = v.names := by
  cases v with
  | object members =>
    have hlength : (members.map (·.1)).length ≤ ps.length := by simp [h, parts]
    show ((members.map (·.1)).zip ps).map (·.1) = members.map (·.1)
    exact List.map_fst_zip hlength
  | _ => rfl

theorem parts_withParts {v : Json} {ps : List Json} (h : ps.length = v.parts.length) :
    (v.withParts ps).parts = ps := by
  cases v with
  | array items => rfl
  | object members =>
    have hlength : ps.length ≤ (members.map (·.1)).length := by simp [h, parts]
    show ((members.map (·.1)).zip ps).map (·.2) = ps
    exact List.map_snd_zip hlength
  | _ => exact (List.length_eq_zero_iff.1 h).symm

mutual

/-- How many values a value consists of, itself and all that are in it. -/
def nodeCount : Json → Nat
  | .array items => nodeCountOfItems items + 1
  | .object members => nodeCountOfMembers members + 1
  | _ => 1

/-- How many values items consist of. -/
def nodeCountOfItems : List Json → Nat
  | [] => 0
  | item :: rest => nodeCount item + nodeCountOfItems rest

/-- How many values the members of an object consist of. -/
def nodeCountOfMembers : List (String × Json) → Nat
  | [] => 0
  | (_, value) :: rest => nodeCount value + nodeCountOfMembers rest

end

theorem nodeCountOfItems_eq (items : List Json) : nodeCountOfItems items = (items.map nodeCount).sum := by
  induction items with
  | nil => rfl
  | cons item rest ih => rw [nodeCountOfItems, ih, List.map_cons, List.sum_cons]

theorem nodeCountOfMembers_eq (members : List (String × Json)) :
    nodeCountOfMembers members = ((members.map (·.2)).map nodeCount).sum := by
  induction members with
  | nil => rfl
  | cons m rest ih => rw [nodeCountOfMembers, ih, List.map_cons, List.map_cons, List.sum_cons]

theorem nodeCount_eq (v : Json) : v.nodeCount = (v.parts.map nodeCount).sum + 1 := by
  cases v with
  | array items => rw [nodeCount, nodeCountOfItems_eq, parts]
  | object members => rw [nodeCount, nodeCountOfMembers_eq, parts]
  | _ => rfl

/-! ### Walks -/

/-- A node on a walk, and what the transformation makes of it; nothing if the walk does not get there. -/
structure Stop (ε : Type) where
  node : Json
  reply : Option (Except ε Visit)

variable {ε σ : Type}

namespace Stop

/-- The parts that are gone into. -/
def parts (stop : Stop ε) : List Json :=
  match stop.reply with
  | some (.ok (.enter value)) => value.parts
  | _ => []

/-- What the node becomes, given what becomes of the parts that are gone into. -/
def rebuilt (stop : Stop ε) (parts : List Json) : Json :=
  match stop.reply with
  | some (.ok (.enter value)) => value.withParts parts
  | some (.ok (.keep value)) => value
  | _ => stop.node

end Stop

/-- Below each node are the parts of what is gone into there, in their order, and nothing else. -/
inductive Unfolds : Tree (Stop ε) → Prop where
  | node {stop : Stop ε} {children : List (Tree (Stop ε))} (parts : children.map (·.label.node) = stop.parts)
    (below : ∀ c ∈ children, Unfolds c) : Unfolds (.node stop children)

/-- There is nothing below a node that is not gone into. -/
theorem Unfolds.children_eq_nil {stop : Stop ε} {children : List (Tree (Stop ε))} (h : Unfolds (.node stop children))
    (hstop : stop.parts = []) : children = [] := by
  obtain ⟨hparts, -⟩ := h
  exact List.map_eq_nil_iff.1 (hparts.trans hstop)

/-- The value that a tree of stops stands for. -/
def rebuiltFrom : Tree (Stop ε) → Json :=
  Tree.fold Stop.rebuilt

theorem rebuiltFrom_node (stop : Stop ε) (children : List (Tree (Stop ε))) :
    rebuiltFrom (.node stop children) = stop.rebuilt (children.map rebuiltFrom) := by
  unfold rebuiltFrom
  rw [Tree.fold, Tree.foldAll_eq]

/-- The transformation is called at one stop after the other, each time in the state that the last call left. -/
inductive Calls (transform : Json → ExceptT ε (StateM σ) Visit) : σ → List (Stop ε) → Option ε → σ → Prop where
  | done (s : σ) : Calls transform s [] none s
  | reply {s s' s'' : σ} {node : Json} {visit : Visit} {stops : List (Stop ε)} {fault : Option ε}
    (call : (transform node).run.run s = (.ok visit, s')) (rest : Calls transform s' stops fault s'') :
    Calls transform s (⟨node, some (.ok visit)⟩ :: stops) fault s''
  /-- After a failure there are no more calls. -/
  | fail {s s' : σ} {node : Json} {cause : ε} {stops : List (Stop ε)}
    (call : (transform node).run.run s = (.error cause, s')) (rest : ∀ stop ∈ stops, stop.reply = none) :
    Calls transform s (⟨node, some (.error cause)⟩ :: stops) (some cause) s'

variable {transform : Json → ExceptT ε (StateM σ) Visit} {stops more : List (Stop ε)} {fault : Option ε}
    {s s' s'' : σ}

namespace Calls

theorem append (h : Calls transform s stops none s') (hmore : Calls transform s' more fault s'') :
    Calls transform s (stops ++ more) fault s'' := by
  generalize hfault : (none : Option ε) = success at h
  induction h with
  | done s => exact hmore
  | reply call _ ih => exact .reply call (ih hmore hfault)
  | fail => simp at hfault

theorem append_of_fault {cause : ε} (h : Calls transform s stops (some cause) s')
    (hmore : ∀ stop ∈ more, stop.reply = none) : Calls transform s (stops ++ more) (some cause) s' := by
  generalize hfault : some cause = failure at h
  induction h with
  | done s => simp at hfault
  | reply call _ ih => exact .reply call (ih hfault)
  | fail call rest => exact .fail call (List.forall_mem_append.2 ⟨rest, hmore⟩)

/-- The calls at the first stops succeed and are followed by the others, or one of them fails. -/
theorem split (h : Calls transform s (stops ++ more) fault s'') :
    (∃ s', Calls transform s stops none s' ∧ Calls transform s' more fault s'') ∨
      (Calls transform s stops fault s'' ∧ fault.isSome = true) := by
  induction stops generalizing s with
  | nil => exact .inl ⟨s, .done s, h⟩
  | cons stop rest ih =>
    cases h with
    | reply call hrest =>
      rcases ih hrest with ⟨s', hfirst, hmore⟩ | ⟨hfirst, hfault⟩
      · exact .inl ⟨s', .reply call hfirst, hmore⟩
      · exact .inr ⟨.reply call hfirst, hfault⟩
    | fail call hrest => exact .inr ⟨.fail call (List.forall_mem_append.1 hrest).1, rfl⟩

end Calls

/-! ### There is a walk -/

/-- A walk over a value, with at most as many stops as the value has nodes. -/
structure Walk (transform : Json → ExceptT ε (StateM σ) Visit) (s : σ) (value : Json) (tree : Tree (Stop ε))
    (fault : Option ε) (s' : σ) : Prop where
  unfolds : Unfolds tree
  node : tree.label.node = value
  length_le : tree.labels.length ≤ value.nodeCount
  calls : Calls transform s tree.labels fault s'

/-- Walks over values, one after the other. -/
structure Walks (transform : Json → ExceptT ε (StateM σ) Visit) (s : σ) (values : List Json)
    (trees : List (Tree (Stop ε))) (fault : Option ε) (s' : σ) : Prop where
  unfolds : ∀ t ∈ trees, Unfolds t
  nodes : trees.map (·.label.node) = values
  length_le : (trees.flatMap Tree.labels).length ≤ (values.map nodeCount).sum
  calls : Calls transform s (trees.flatMap Tree.labels) fault s'

/-- A value that a walk does not get to. -/
def unreached (value : Json) : Tree (Stop ε) :=
  .node ⟨value, none⟩ []

theorem labels_unreached (values : List Json) :
    (values.map unreached).flatMap Tree.labels = values.map fun value => (⟨value, none⟩ : Stop ε) := by
  rw [List.flatMap_map, List.map_eq_flatMap]
  exact List.flatMap_congr fun value _ => Tree.labels_node _ _

theorem nodeCount_pos (v : Json) : 0 < v.nodeCount := by
  rw [nodeCount_eq]
  exact Nat.succ_pos _

theorem length_le_sum_nodeCount (values : List Json) : values.length ≤ (values.map nodeCount).sum := by
  induction values with
  | nil => exact Nat.le_refl 0
  | cons v rest ih =>
    rw [List.length_cons, List.map_cons, List.sum_cons, Nat.add_comm]
    exact Nat.add_le_add (nodeCount_pos v) ih

theorem nodeCount_lt_of_mem_parts {v part : Json} (h : part ∈ v.parts) : part.nodeCount < v.nodeCount := by
  rw [nodeCount_eq v]
  exact Nat.lt_succ_of_le (List.single_le_sum (fun _ _ => Nat.zero_le _) _ (List.mem_map_of_mem h))

section Walks

variable {value : Json} {values : List Json} {tree : Tree (Stop ε)} {trees : List (Tree (Stop ε))}

theorem Walks.nil (transform : Json → ExceptT ε (StateM σ) Visit) (s : σ) : Walks transform s [] [] none s :=
  ⟨by simp, rfl, Nat.le_refl 0, .done s⟩

theorem Walks.cons (h : Walk transform s value tree none s') (hrest : Walks transform s' values trees fault s'') :
    Walks transform s (value :: values) (tree :: trees) fault s'' where
  unfolds := List.forall_mem_cons.2 ⟨h.unfolds, hrest.unfolds⟩
  nodes := by rw [List.map_cons, hrest.nodes, h.node]
  length_le := by
    rw [List.flatMap_cons, List.length_append, List.map_cons, List.sum_cons]
    exact Nat.add_le_add h.length_le hrest.length_le
  calls := h.calls.append hrest.calls

/-- What comes after a failure is not reached. -/
theorem Walks.of_fault {cause : ε} (h : Walk transform s value tree (some cause) s') (values : List Json) :
    Walks transform s (value :: values) (tree :: values.map unreached) (some cause) s' where
  unfolds := by
    refine List.forall_mem_cons.2 ⟨h.unfolds, List.forall_mem_map.2 fun v _ => ?_⟩
    exact .node rfl fun c hc => absurd hc List.not_mem_nil
  nodes := by
    rw [List.map_cons, h.node, List.map_map]
    exact congrArg (value :: ·) (List.map_id values)
  length_le := by
    rw [List.flatMap_cons, labels_unreached, List.length_append, List.length_map, List.map_cons, List.sum_cons]
    exact Nat.add_le_add h.length_le (length_le_sum_nodeCount values)
  calls := by
    rw [List.flatMap_cons, labels_unreached]
    exact h.calls.append_of_fault (List.forall_mem_map.2 fun _ _ => rfl)

/-- A node that is not gone into is a walk by itself. -/
theorem Walk.leaf {stop : Stop ε} (hstop : stop.parts = []) (hcalls : Calls transform s [stop] fault s') :
    Walk transform s stop.node (.node stop []) fault s' where
  unfolds := .node hstop.symm fun c hc => absurd hc List.not_mem_nil
  node := rfl
  length_le := by
    rw [Tree.labels_node]
    exact nodeCount_pos stop.node
  calls := by rwa [Tree.labels_node]

/-- A node is followed by the parts of what is gone into. -/
theorem Walk.enter {entered : Json} (hcall : (transform value).run.run s = (.ok (.enter entered), s'))
    (hle : entered.nodeCount ≤ value.nodeCount) (h : Walks transform s' entered.parts trees fault s'') :
    Walk transform s value (.node ⟨value, some (.ok (.enter entered))⟩ trees) fault s'' where
  unfolds := .node h.nodes h.unfolds
  node := rfl
  length_le := by
    rw [nodeCount_eq entered] at hle
    rw [Tree.labels_node, List.length_cons]
    exact Nat.le_trans (Nat.succ_le_succ h.length_le) hle
  calls := by
    rw [Tree.labels_node]
    exact .reply hcall h.calls

theorem exists_walks (h : ∀ v ∈ values, ∀ s, ∃ tree fault s', Walk transform s v tree fault s') (s : σ) :
    ∃ trees fault s', Walks transform s values trees fault s' := by
  induction values generalizing s with
  | nil => exact ⟨[], none, s, Walks.nil transform s⟩
  | cons v rest ih =>
    rw [List.forall_mem_cons] at h
    obtain ⟨tree, fault, s₁, hfirst⟩ := h.1 s
    cases fault with
    | some cause => exact ⟨_, _, _, Walks.of_fault hfirst rest⟩
    | none =>
      obtain ⟨trees, fault, s', hrest⟩ := ih h.2 s₁
      exact ⟨_, _, _, Walks.cons hfirst hrest⟩

end Walks

/-- What is gone into never has more nodes than the node that it stands for. -/
def NeverGrows (transform : Json → ExceptT ε (StateM σ) Visit) : Prop :=
  ∀ node s value s', (transform node).run.run s = (.ok (.enter value), s') → value.nodeCount ≤ node.nodeCount

/-- There is a walk, since the nodes that it gets to become fewer from level to level. -/
theorem exists_walk (hshrink : NeverGrows transform) (value : Json) (s : σ) :
    ∃ tree fault s', Walk transform s value tree fault s' := by
  induction hcount : value.nodeCount using Nat.strongRecOn generalizing value s with
  | ind count ih =>
    subst hcount
    cases hcall : (transform value).run.run s with
    | mk result s₁ =>
      cases result with
      | error cause => exact ⟨_, _, _, Walk.leaf rfl (.fail hcall fun stop hstop => absurd hstop List.not_mem_nil)⟩
      | ok visit =>
        cases visit with
        | keep kept => exact ⟨_, _, _, Walk.leaf rfl (.reply hcall (.done s₁))⟩
        | enter entered =>
          have hle := hshrink value s entered s₁ hcall
          have hparts : ∀ part ∈ entered.parts, ∀ s, ∃ tree fault s', Walk transform s part tree fault s' :=
            fun part hpart s => ih _ (Nat.lt_of_lt_of_le (nodeCount_lt_of_mem_parts hpart) hle) part s rfl
          obtain ⟨trees, fault, s', hwalks⟩ := exists_walks hparts s₁
          exact ⟨_, fault, s', Walk.enter hcall hle hwalks⟩

/-! ### What is visited -/

/-- The nodes at which the transformation is called. -/
def visited (stops : List (Stop ε)) : List Json :=
  (stops.filter (·.reply.isSome)).map (·.node)

theorem visited_cons (stop : Stop ε) (stops : List (Stop ε)) :
    visited (stop :: stops) = (if stop.reply.isSome then [stop.node] else []) ++ visited stops := by
  unfold visited
  rw [List.filter_cons]
  split <;> rfl

theorem visited_eq_nil (h : ∀ stop ∈ stops, stop.reply = none) : visited stops = [] := by
  unfold visited
  rw [List.filter_eq_nil_iff.2 fun stop hstop => by simp [h stop hstop], List.map_nil]

/-- The transformation, with a record of the nodes that it is called on. -/
def recording (transform : Json → ExceptT ε (StateM σ) Visit) (node : Json) :
    ExceptT ε (StateM (σ × List Json)) Visit :=
  ExceptT.mk fun (s, seen) =>
    let (result, s') := (transform node).run.run s
    (result, (s', seen ++ [node]))

theorem run_recording {node : Json} {result : Except ε Visit} (h : (transform node).run.run s = (result, s'))
    (seen : List Json) : (recording transform node).run.run (s, seen) = (result, (s', seen ++ [node])) := by
  show (((transform node).run.run s).1, (((transform node).run.run s).2, seen ++ [node])) = _
  rw [h]

namespace Calls

/-- The record has the nodes of the stops up to the one where a call fails. -/
theorem recording (h : Calls transform s stops fault s') (seen : List Json) :
    Calls (recording transform) (s, seen) stops fault (s', seen ++ visited stops) := by
  induction h generalizing seen with
  | done s =>
    rw [visited, List.filter_nil, List.map_nil, List.append_nil]
    exact .done (s, seen)
  | reply call _ ih =>
    rw [visited_cons, ← List.append_assoc]
    exact .reply (run_recording call seen) (ih _)
  | fail call rest =>
    rw [visited_cons, visited_eq_nil rest, List.append_nil]
    exact .fail (run_recording call seen) rest

/-- Where no call fails all nodes are visited. -/
theorem visited_eq (h : Calls transform s stops none s') : visited stops = stops.map (·.node) := by
  generalize hfault : (none : Option ε) = success at h
  induction h with
  | done s => rfl
  | reply _ _ ih =>
    rw [visited_cons, ih hfault]
    rfl
  | fail => simp at hfault

/-- Where a call fails its node is the last one visited, after all that come before. -/
theorem exists_fault {cause : ε} (h : Calls transform s stops (some cause) s') :
    ∃ before last after, stops = before ++ last :: after ∧ last.reply = some (.error cause) ∧
      visited stops = before.map (·.node) ++ [last.node] := by
  generalize hfault : some cause = failure at h
  induction h with
  | done s => simp at hfault
  | @reply _ _ _ node visit _ _ _ _ ih =>
    obtain ⟨before, last, after, rfl, hlast, hvisited⟩ := ih hfault
    refine ⟨⟨node, some (.ok visit)⟩ :: before, last, after, rfl, hlast, ?_⟩
    rw [visited_cons, hvisited]
    rfl
  | @fail _ _ node _ stops _ rest =>
    obtain rfl := Option.some.inj hfault
    refine ⟨[], ⟨node, some (.error cause)⟩, stops, rfl, rfl, ?_⟩
    rw [visited_cons, visited_eq_nil rest]
    rfl

theorem exists_call (h : Calls transform s stops fault s') {stop : Stop ε} (hstop : stop ∈ stops) {visit : Visit}
    (hreply : stop.reply = some (.ok visit)) : ∃ s s', (transform stop.node).run.run s = (.ok visit, s') := by
  induction h with
  | done s => exact absurd hstop List.not_mem_nil
  | reply call _ ih =>
    rcases List.mem_cons.1 hstop with rfl | hrest
    · obtain rfl := Except.ok.inj (Option.some.inj hreply)
      exact ⟨_, _, call⟩
    · exact ih hrest
  | fail call rest =>
    rcases List.mem_cons.1 hstop with rfl | hrest
    · simp at hreply
    · simp [rest stop hrest] at hreply

end Calls

/-! ### Order of the members -/

theorem isSorted_iff {v : Json} :
    v.IsSorted ↔ v.names.Pairwise (· < ·) ∧ ∀ part ∈ v.parts, part.IsSorted := by
  cases v with
  | array items => simp [IsSorted, isSortedItems_iff, names, parts]
  | object members => rw [IsSorted, isSortedMembers_iff, names, parts, List.forall_mem_map]
  | _ => simp [IsSorted, names, parts]

theorem isSorted_withParts {v : Json} {ps : List Json} (hv : v.IsSorted) (hlength : ps.length = v.parts.length)
    (hps : ∀ part ∈ ps, part.IsSorted) : (v.withParts ps).IsSorted := by
  rw [isSorted_iff, names_withParts hlength, parts_withParts hlength]
  exact ⟨(isSorted_iff.1 hv).1, hps⟩

/-- The value that is kept or gone into. -/
def Visit.value : Visit → Json
  | .enter value => value
  | .keep value => value

/-- The names of the members that are gone into, in order. -/
def Stop.names (stop : Stop ε) : List String :=
  match stop.reply with
  | some (.ok (.enter value)) => value.names
  | _ => []

/-- Of a value with its members sorted the transformation makes such a value. -/
def KeepsSorted (transform : Json → ExceptT ε (StateM σ) Visit) : Prop :=
  ∀ node s visit s', node.IsSorted → (transform node).run.run s = (.ok visit, s') → visit.value.IsSorted

/-- If the members of objects are sorted by name, then they are visited in this order, and stay sorted. -/
theorem Unfolds.isSorted {tree : Tree (Stop ε)} (hsorted : KeepsSorted transform) (h : Unfolds tree)
    (hcalls : ∀ stop ∈ tree.labels, ∀ visit, stop.reply = some (.ok visit) →
      ∃ s s', (transform stop.node).run.run s = (.ok visit, s'))
    (hnode : tree.label.node.IsSorted) :
    (∀ stop ∈ tree.labels, stop.names.Pairwise (· < ·)) ∧ (rebuiltFrom tree).IsSorted := by
  induction tree using Tree.induction with
  | node stop children ih =>
    obtain ⟨node, reply⟩ := stop
    rw [Tree.labels_node, List.forall_mem_cons] at hcalls
    rw [Tree.labels_node, List.forall_mem_cons, rebuiltFrom_node]
    match reply with
    | none | some (.error _) =>
      obtain rfl := h.children_eq_nil rfl
      exact ⟨⟨.nil, by simp⟩, hnode⟩
    | some (.ok (.keep value)) =>
      obtain rfl := h.children_eq_nil rfl
      obtain ⟨s, s', hcall⟩ := hcalls.1 _ rfl
      exact ⟨⟨.nil, by simp⟩, hsorted node s _ s' hnode hcall⟩
    | some (.ok (.enter value)) =>
      obtain ⟨hparts, hbelow⟩ := h
      obtain ⟨s, s', hcall⟩ := hcalls.1 _ rfl
      have hvalue : value.IsSorted := hsorted node s _ s' hnode hcall
      have hparts : children.map (·.label.node) = value.parts := hparts
      have hchildren : ∀ c ∈ children, (∀ stop ∈ c.labels, stop.names.Pairwise (· < ·)) ∧
          (rebuiltFrom c).IsSorted := by
        intro c hc
        have hmem : c.label.node ∈ value.parts := hparts ▸ List.mem_map_of_mem hc
        refine ih c hc (hbelow c hc) (fun stop hstop => ?_) ((isSorted_iff.1 hvalue).2 _ hmem)
        exact hcalls.2 stop (List.mem_flatMap.2 ⟨c, hc, hstop⟩)
      refine ⟨⟨(isSorted_iff.1 hvalue).1, fun stop hstop => ?_⟩, isSorted_withParts hvalue ?_ ?_⟩
      · obtain ⟨c, hc, hstop⟩ := List.mem_flatMap.1 hstop
        exact (hchildren c hc).1 stop hstop
      · rw [← hparts, List.length_map, List.length_map]
      · exact List.forall_mem_map.2 fun c hc => (hchildren c hc).2

end PageBindings.Json
