import PageBindings.Proofs.Json.Walk

/-!
# How a value is rebuilt

Rebuilding is to go into the parts of what the transformation gives, unless it is kept (`rebuild_succ`).  So a walk
says what is rebuilt, with any number of levels that it has room in (`run_rebuild`).  There is one, in preorder, if
what is gone into never has more nodes than the node that it stands for (`rebuild_in_preorder`).
-/

namespace PageBindings.Json

/-! ### One equation -/

section Monad

variable {m : Type → Type} [Monad m] [LawfulMonad m] {transform : Json → m Visit} {levels : Nat}

private theorem mapM_members (f : Json → m Json) (members : List (String × Json)) :
    (members.mapM fun (name, value) => do
      let value ← f value
      pure (name, value)) = (fun values => (members.map (·.1)).zip values) <$> (members.map (·.2)).mapM f := by
  induction members with
  | nil => simp
  | cons first rest ih =>
    obtain ⟨name, value⟩ := first
    rw [List.mapM_cons, ih]
    simp

/-- Rebuilding is to go into the parts of what the transformation gives, unless it is kept. -/
theorem rebuild_succ (value : Json) :
    rebuild transform (levels + 1) value = transform value >>= fun
      | .keep value => pure value
      | .enter value => value.withParts <$> value.parts.mapM (rebuild transform levels) := by
  rw [rebuild]
  refine bind_congr fun visit => ?_
  cases visit with
  | keep value => rfl
  | enter value =>
    cases value with
    | array items => exact bind_pure_comp _ _
    | object members =>
      dsimp only
      rw [mapM_members, bind_pure_comp, Functor.map_map]
      rfl
    | _ =>
      dsimp only [parts]
      rw [List.mapM_nil, map_pure]
      rfl

end Monad

/-! ### From a walk -/

variable {ε σ : Type} {transform : Json → ExceptT ε (StateM σ) Visit} {fault : Option ε} {s s' : σ}

/-- The result of work that may have failed. -/
def conclude {α : Type} (fault : Option ε) (a : α) : Except ε α :=
  match fault with
  | none => .ok a
  | some cause => .error cause

section Run

variable {α β : Type} {x : ExceptT ε (StateM σ) α} {f : α → ExceptT ε (StateM σ) β} {a : α} {cause : ε}

private theorem run_bind_of_ok (h : x.run.run s = (.ok a, s')) : (x >>= f).run.run s = (f a).run.run s' := by
  rw [ExceptT.run_bind, StateT.run_bind, h]
  rfl

private theorem run_bind_of_error (h : x.run.run s = (.error cause, s')) :
    (x >>= f).run.run s = (.error cause, s') := by
  rw [ExceptT.run_bind, StateT.run_bind, h]
  rfl

private theorem run_map (g : α → β) (h : x.run.run s = (conclude fault a, s')) :
    (g <$> x).run.run s = (conclude fault (g a), s') := by
  rw [← bind_pure_comp]
  cases fault with
  | none => exact run_bind_of_ok h
  | some cause => exact run_bind_of_error h

end Run

private theorem run_mapM {trees : List (Tree (Stop ε))} {f : Json → ExceptT ε (StateM σ) Json}
    (hf : ∀ t ∈ trees, ∀ s fault s', Calls transform s t.labels fault s' →
      (f t.label.node).run.run s = (conclude fault (rebuiltFrom t), s'))
    (h : Calls transform s (trees.flatMap Tree.labels) fault s') :
    ((trees.map (·.label.node)).mapM f).run.run s = (conclude fault (trees.map rebuiltFrom), s') := by
  induction trees generalizing s with
  | nil =>
    cases h
    rfl
  | cons t rest ih =>
    rw [List.forall_mem_cons] at hf
    rw [List.flatMap_cons] at h
    rw [List.map_cons, List.mapM_cons]
    rcases h.split with ⟨s₁, hfirst, hrest⟩ | ⟨hfirst, hfault⟩
    · rw [run_bind_of_ok (hf.1 s none s₁ hfirst), bind_pure_comp]
      exact run_map _ (ih hf.2 hrest)
    · obtain ⟨cause, rfl⟩ := Option.isSome_iff_exists.1 hfault
      exact run_bind_of_error (hf.1 s (some cause) s' hfirst)

/-- A walk says what is rebuilt, with any number of levels that it has room in. -/
theorem run_rebuild {tree : Tree (Stop ε)} (hunfolds : Unfolds tree) (h : Calls transform s tree.labels fault s')
    {levels : Nat} (hlevels : tree.labels.length ≤ levels) :
    (rebuild transform levels tree.label.node).run.run s = (conclude fault (rebuiltFrom tree), s') := by
  induction tree using Tree.induction generalizing s fault s' levels with
  | node stop children ih =>
    rw [Tree.labels_node] at h hlevels
    rw [rebuiltFrom_node]
    cases levels with
    | zero => simp at hlevels
    | succ levels =>
      rw [rebuild_succ]
      cases h with
      | fail call _ => exact run_bind_of_error call
      | @reply _ s₁ _ node visit _ _ call hrest =>
        rw [Tree.label, run_bind_of_ok call]
        cases visit with
        | keep value =>
          obtain rfl := hunfolds.children_eq_nil rfl
          cases hrest
          rfl
        | enter value =>
          obtain ⟨hparts, hbelow⟩ := hunfolds
          have hparts : children.map (·.label.node) = value.parts := hparts
          dsimp only
          rw [← hparts]
          refine run_map _ (run_mapM (fun c hc s fault s' hcalls => ih c hc (hbelow c hc) hcalls ?_) hrest)
          have hle : c.labels.length ≤ (children.flatMap Tree.labels).length :=
            (List.infix_of_mem_flatten (List.mem_map_of_mem hc)).length_le
          exact Nat.le_trans hle (Nat.le_of_succ_le_succ hlevels)

/-! ### The rebuilt value -/

/-- What is gone into gets what its parts become as its parts, and keeps its names and the number of its parts. -/
theorem Unfolds.rebuiltFrom_entered {stop : Stop ε} {children : List (Tree (Stop ε))} {value : Json}
    (h : Unfolds (.node stop children)) (hreply : stop.reply = some (.ok (.enter value))) :
    rebuiltFrom (.node stop children) = value.withParts (children.map rebuiltFrom) ∧
      (rebuiltFrom (.node stop children)).names = value.names ∧
      (rebuiltFrom (.node stop children)).parts = children.map rebuiltFrom ∧
        children.length = value.parts.length := by
  obtain ⟨hparts, -⟩ := h
  have hstop : stop.parts = value.parts := by
    unfold Stop.parts
    rw [hreply]
  have hlength : children.length = value.parts.length := by
    rw [← hstop, ← hparts, List.length_map]
  have hrebuilt : rebuiltFrom (.node stop children) = value.withParts (children.map rebuiltFrom) := by
    rw [rebuiltFrom_node]
    unfold Stop.rebuilt
    rw [hreply]
  have hmap : (children.map rebuiltFrom).length = value.parts.length := by rw [List.length_map, hlength]
  refine ⟨hrebuilt, ?_, ?_, hlength⟩
  · rw [hrebuilt, names_withParts hmap]
  · rw [hrebuilt, parts_withParts hmap]

/--
A rebuilding whose transformation goes into values with no more nodes than those that they stand for ends by itself,
with any bound on the levels from the number of nodes on.  It is a walk in preorder: the nodes that the transformation
is called on are the nodes of a tree, each before the parts that are gone into, up to the one where a call fails.
Without a failure the new value is that of the tree, in which arrays keep their lengths and objects their names; and
if the members of objects are sorted by name, as those of JSON values are, then they are visited in this order.
-/
theorem rebuild_in_preorder (hshrink : NeverGrows transform) (value : Json) (s : σ) :
    ∃ tree fault s', Walk transform s value tree fault s' ∧
      (∀ levels ≥ value.nodeCount,
        (rebuild transform levels value).run.run s = (conclude fault (rebuiltFrom tree), s') ∧
        (rebuild (recording transform) levels value).run.run (s, []) =
          (conclude fault (rebuiltFrom tree), (s', visited tree.labels))) ∧
      (fault = none → visited tree.labels = tree.labels.map (·.node)) ∧
      (∀ cause, fault = some cause → ∃ before last after, tree.labels = before ++ last :: after ∧
        last.reply = some (.error cause) ∧ visited tree.labels = before.map (·.node) ++ [last.node]) ∧
      (∀ (stop : Stop ε) children entered, Unfolds (.node stop children) → stop.reply = some (.ok (.enter entered)) →
        rebuiltFrom (.node stop children) = entered.withParts (children.map rebuiltFrom) ∧
        (rebuiltFrom (.node stop children)).names = entered.names ∧
        (rebuiltFrom (.node stop children)).parts = children.map rebuiltFrom ∧
        children.length = entered.parts.length) ∧
      (KeepsSorted transform → value.IsSorted →
        (∀ stop ∈ tree.labels, stop.names.Pairwise (· < ·)) ∧ (rebuiltFrom tree).IsSorted) := by
  obtain ⟨tree, fault, s', hwalk⟩ := exists_walk hshrink value s
  refine ⟨tree, fault, s', hwalk, fun levels hlevels => ?_, ?_, ?_,
    fun _ _ _ hunfolds hreply => hunfolds.rebuiltFrom_entered hreply, fun hsorted hvalue => ?_⟩
  · have hroom := Nat.le_trans hwalk.length_le hlevels
    have hrun := run_rebuild hwalk.unfolds hwalk.calls hroom
    have hrecorded := run_rebuild hwalk.unfolds (hwalk.calls.recording []) hroom
    rw [hwalk.node] at hrun hrecorded
    exact ⟨hrun, hrecorded⟩
  · rintro rfl
    exact hwalk.calls.visited_eq
  · rintro cause rfl
    exact hwalk.calls.exists_fault
  · refine hwalk.unfolds.isSorted hsorted (fun stop hstop visit hreply => ?_) (hwalk.node ▸ hvalue)
    exact hwalk.calls.exists_call hstop hreply

/--
Goes into an object as into an array of its values, keeps a longer array in the place of a text, and stops at one.
-/
def unpack : Json → Except String Visit
  | .string text => if text = "stop" then .error "stopped" else .ok (.keep (.array [.string text, .string text]))
  | .object members => .ok (.enter (.array (members.map (·.2))))
  | node => .ok (.enter node)

/-- Unpacks, and counts its calls. -/
def unpackCounting (node : Json) : ExceptT String (StateM Nat) Visit :=
  ExceptT.mk fun count => (unpack node, count + 1)

theorem neverGrows_unpackCounting : NeverGrows unpackCounting := by
  intro node count value count' h
  have hunpack : unpack node = .ok (.enter value) := congrArg Prod.fst h
  cases node with
  | string text =>
    dsimp only [unpack] at hunpack
    split at hunpack
    · cases hunpack
    · cases hunpack
  | object members =>
    cases hunpack
    rw [nodeCount_eq, nodeCount_eq]
    exact Nat.le_refl _
  | _ =>
    cases hunpack
    exact Nat.le_refl _

/-- The last item is not visited, and neither are the items of the array that is kept. -/
theorem rebuild_in_preorder_stopped :
    NeverGrows unpackCounting ∧ ∃ tree,
      Walk unpackCounting 0 (.array [.object [("a", .null), ("b", .string "x")], .string "stop", .bool true]) tree
        (some "stopped") 5 ∧
      visited tree.labels = [.array [.object [("a", .null), ("b", .string "x")], .string "stop", .bool true],
        .object [("a", .null), ("b", .string "x")], .null, .string "x", .string "stop"] ∧
      ∃ before last after, tree.labels = before ++ last :: after ∧ last.reply = some (.error "stopped") ∧
        visited tree.labels = before.map (·.node) ++ [last.node] := by
  obtain ⟨tree, fault, count, hwalk, hrun, -, hfault, -, -⟩ := rebuild_in_preorder neverGrows_unpackCounting
    (.array [.object [("a", .null), ("b", .string "x")], .string "stop", .bool true]) 0
  have hrecorded := (hrun 6 (Nat.le_refl 6)).2
  have hstopped : (rebuild (recording unpackCounting) 6
      (.array [.object [("a", .null), ("b", .string "x")], .string "stop", .bool true])).run.run (0, []) =
        (.error "stopped", (5, [.array [.object [("a", .null), ("b", .string "x")], .string "stop", .bool true],
          .object [("a", .null), ("b", .string "x")], .null, .string "x", .string "stop"])) := by rfl
  rw [hstopped] at hrecorded
  obtain ⟨hresult, hstate⟩ := Prod.mk.inj hrecorded
  obtain ⟨rfl, hvisited⟩ := Prod.mk.inj hstate
  cases fault with
  | none => cases hresult
  | some cause =>
    obtain rfl : "stopped" = cause := Except.error.inj hresult
    exact ⟨neverGrows_unpackCounting, tree, hwalk, hvisited.symm, hfault "stopped" rfl⟩

end PageBindings.Json
