import PageBindings.Proofs.Document.Copies

/-!
# An edit is a graft

What putting an element in or detaching a target does to the children of all nodes is one equation
(`Document.Spliced`).  From it follows what becomes of the tree of the document: the graft that hits the target and
has the tree of the element for its scion (`Spliced.graft_tree`).
-/

namespace PageBindings

namespace PatchKind

/-- What takes the place of a target among the children of its parent. -/
def instead (kind : PatchKind) (target element : NodeId) : List NodeId :=
  match kind with
  | .swap => [element]
  | .remove => []
  | .append | .prepend | .reset => [target]

/-- What becomes of the children of a target. -/
def within (kind : PatchKind) (element : NodeId) (children : List NodeId) : List NodeId :=
  match kind with
  | .append => children ++ [element]
  | .prepend => element :: children
  | .swap | .remove | .reset => children

end PatchKind

namespace Document

variable {α : Type} {kind : PatchKind} {d d' : Document} {base e n p target : NodeId}

/-- A list with others in the place of an item. -/
def replaceItem (item : NodeId) (others cs : List NodeId) : List NodeId :=
  cs.flatMap fun c => if c = item then others else [c]

theorem replaceItem_of_not_mem {item : NodeId} {others cs : List NodeId} (h : item ∉ cs) :
    replaceItem item others cs = cs := by
  calc replaceItem item others cs = cs.flatMap fun c => [c] :=
      List.flatMap_congr fun c hc => if_neg (ne_of_mem_of_not_mem hc h)
    _ = cs := List.flatMap_singleton' cs

theorem replaceItem_self (item : NodeId) (cs : List NodeId) : replaceItem item [item] cs = cs := by
  calc replaceItem item [item] cs = cs.flatMap fun c => [c] := by
        refine List.flatMap_congr fun c _ => ?_
        split
        · rename_i he
          rw [he]
        · rfl
    _ = cs := List.flatMap_singleton' cs

theorem replaceItem_nil {item : NodeId} {cs : List NodeId} (h : cs.Nodup) :
    replaceItem item [] cs = cs.erase item := by
  induction cs with
  | nil => rfl
  | cons c rest ih =>
    rw [List.nodup_cons] at h
    unfold replaceItem at ih ⊢
    rw [List.flatMap_cons, ih h.2, List.erase_cons]
    by_cases he : c = item
    · rw [if_pos he, if_pos (beq_iff_eq.2 he), List.nil_append, List.erase_of_not_mem (he ▸ h.1)]
    · rw [if_neg he, if_neg (by simpa using he), List.singleton_append]

/-- Where an item was taken out another one is put in. -/
theorem replaceItem_singleton {item other : NodeId} {cs : List NodeId} (h : cs.Nodup) (hmem : item ∈ cs) :
    replaceItem item [other] cs = (cs.erase item).insertIdx (cs.idxOf item) other := by
  induction cs with
  | nil => simp at hmem
  | cons c rest ih =>
    rw [List.nodup_cons] at h
    by_cases he : c = item
    · subst he
      have hrest : replaceItem c [other] rest = rest := replaceItem_of_not_mem h.1
      unfold replaceItem at hrest ⊢
      rw [List.flatMap_cons, hrest]
      simp
    · have hrest := ih h.2 ((List.mem_cons.1 hmem).resolve_left (Ne.symm he))
      unfold replaceItem at hrest ⊢
      rw [List.flatMap_cons, hrest, List.erase_cons_tail (by simpa using he), List.idxOf_cons_ne _ he]
      simp [he]

theorem replaceItem_append_cons {item : NodeId} {others before after : List NodeId}
    (h : (before ++ item :: after).Nodup) :
    replaceItem item others (before ++ item :: after) = before ++ others ++ after := by
  have hnot : item ∉ before ++ after := (List.nodup_cons.1 (List.nodup_middle.1 h)).1
  rw [List.mem_append, not_or] at hnot
  have hbefore : replaceItem item others before = before := replaceItem_of_not_mem hnot.1
  have hafter : replaceItem item others after = after := replaceItem_of_not_mem hnot.2
  unfold replaceItem at hbefore hafter ⊢
  rw [List.flatMap_append, List.flatMap_cons, if_pos rfl, hbefore, hafter, List.append_assoc]

/-- Without the item that was put in, the item that was replaced is missing. -/
theorem erase_replaceItem {item other : NodeId} {cs : List NodeId} (h : cs.Nodup) (hother : other ∉ cs) :
    (replaceItem item [other] cs).erase other = cs.erase item := by
  by_cases hmem : item ∈ cs
  · obtain ⟨before, after, rfl⟩ := List.append_of_mem hmem
    have hbefore : other ∉ before := fun hin => hother (List.mem_append_left _ hin)
    have hitem : item ∉ before := fun hin =>
      (List.nodup_cons.1 (List.nodup_middle.1 h)).1 (List.mem_append_left _ hin)
    rw [replaceItem_append_cons h, List.append_assoc, List.singleton_append, List.erase_append_right _ hbefore,
      List.erase_append_right _ hitem, List.erase_cons_head, List.erase_cons_head]
  · rw [replaceItem_of_not_mem hmem, List.erase_of_not_mem hother, List.erase_of_not_mem hmem]

/-- The children of all nodes after an edit at one target. -/
structure Spliced (kind : PatchKind) (target e : NodeId) (d d' : Document) : Prop where
  children (n : NodeId) : d'.children n =
    if n = target then kind.within e (replaceItem target (kind.instead target e) (d.children n))
    else replaceItem target (kind.instead target e) (d.children n)

/-- A node that is no child of another one is not replaced there. -/
theorem Forest.replaceItem_children (hf : d.Forest) {others : List NodeId} (h : d.parent? target ≠ some n) :
    replaceItem target others (d.children n) = d.children n :=
  replaceItem_of_not_mem fun hmem => h (hf.mem_children_iff.1 hmem)

theorem spliced_detach (hf : d.Forest) (target e : NodeId) : Spliced .remove target e d (d.detach target) where
  children n := by
    have hnil : replaceItem target [] (d.children n) = (d.children n).erase target :=
      replaceItem_nil (hf.nodup_children n)
    show _ = if n = target then replaceItem target [] (d.children n) else replaceItem target [] (d.children n)
    rw [ite_self, hnil, hf.linked.children_detach]

/-- An item that does not come before another one can be taken out without moving that one. -/
theorem idxOf_erase {item other : NodeId} {cs : List NodeId} (hne : item ≠ other) (hmem : item ∈ cs)
    (h : ¬ [other, item].Sublist cs) : (cs.erase other).idxOf item = cs.idxOf item := by
  induction cs with
  | nil => simp at hmem
  | cons c rest ih =>
    by_cases hitem : c = item
    · subst hitem
      rw [List.erase_cons_tail (by simpa using hne), List.idxOf_cons_self, List.idxOf_cons_self]
    · have hmem : item ∈ rest := (List.mem_cons.1 hmem).resolve_left (Ne.symm hitem)
      have hother : c ≠ other := by
        rintro rfl
        exact h ((List.singleton_sublist.2 hmem).cons_cons c)
      have hrest := ih hmem fun hsub => h (hsub.cons c)
      rw [List.erase_cons_tail (by simpa using hother), List.idxOf_cons_ne _ hitem, List.idxOf_cons_ne _ hitem, hrest]

/-- An element is taken out of its place before it is put in, which must not move the place of a target. -/
theorem spliced_detach_put? (hf : d.Forest) (ht : target < d.size) (hk : kind.creates = true)
    (hswap : kind = .swap → target ≠ e ∧ ∀ p, ¬ [e, target].Sublist (d.children p))
    (h : put? kind d target e = some d') : Spliced kind target e (d.detach e) d' where
  children n := by
    have hother : replaceItem target [target] ((d.detach e).children n) = (d.detach e).children n :=
      replaceItem_self _ _
    cases kind with
    | swap =>
      obtain ⟨hne, hlater⟩ := hswap rfl
      obtain ⟨⟨p, index⟩, hplace, rfl⟩ := Option.map_eq_some_iff.1 h
      obtain ⟨q, hq, hpq⟩ := Option.map_eq_some_iff.1 hplace
      obtain ⟨rfl, rfl⟩ := Prod.mk.inj hpq
      have hsize : q < (d.detach target).size := by
        rw [size_detach]
        exact hf.parent_lt_size hq
      have hq' : (d.detach e).parent? target = some q := by rwa [parent?_detach, if_neg hne]
      have hcomm : ((d.detach target).detach e).children n = ((d.detach e).children n).erase target := by
        rw [(hf.detach target).linked.children_detach, hf.linked.children_detach, hf.linked.children_detach,
          List.erase_comm]
      -- the place was looked up before the element was taken out
      have hfits := hf.linked.index_le (Ne.symm hne) (hlater q) hplace
      dsimp only [PatchKind.within, PatchKind.instead]
      rw [ite_self, attachAt_detach, children_attachAt_of_le hsize hfits]
      by_cases hn : n = q
      · subst hn
        have hindex : (d.children n).idxOf target = ((d.detach e).children n).idxOf target := by
          rw [hf.linked.children_detach]
          exact (idxOf_erase hne (hf.mem_children_iff.2 hq) (hlater n)).symm
        rw [if_pos rfl, hcomm, hindex]
        exact (replaceItem_singleton ((hf.detach e).nodup_children n) ((hf.detach e).mem_children_iff.2 hq')).symm
      · have hn' : (d.detach e).parent? target ≠ some n := fun hp => hn (Option.some.inj (hp.symm.trans hq'))
        rw [if_neg hn, hcomm, (hf.detach e).replaceItem_children hn']
        exact List.erase_of_not_mem fun hmem => hn' ((hf.detach e).mem_children_iff.1 hmem)
    | append =>
      obtain rfl := Option.some.inj h
      dsimp only [PatchKind.within, PatchKind.instead]
      rw [hother, attachLast_eq, children_attachAt_of_le ht (Nat.le_refl _)]
      split
      · rename_i hn
        rw [hn, List.insertIdx_length_self]
      · rfl
    | prepend =>
      obtain rfl := Option.some.inj h
      dsimp only [PatchKind.within, PatchKind.instead]
      rw [hother, attachFirst, children_attachAt_of_le ht (Nat.zero_le _)]
      split
      · rename_i hn
        rw [hn, List.insertIdx_zero]
      · rfl
    | remove => simp [PatchKind.creates] at hk
    | reset => simp [PatchKind.creates] at hk

theorem spliced_put? (hf : d.Forest) (he : d.parent? e = none) (ht : target < d.size)
    (hk : kind.creates = true) (h : put? kind d target e = some d') : Spliced kind target e d d' := by
  have hspliced := spliced_detach_put? (e := e) hf ht hk ?_ h
  · rwa [detach_of_parent?_eq_none he] at hspliced
  · rintro rfl
    obtain ⟨_, hplace, -⟩ := Option.map_eq_some_iff.1 h
    obtain ⟨q, hq, -⟩ := Option.map_eq_some_iff.1 hplace
    refine ⟨?_, fun p hsub => ?_⟩
    · rintro rfl
      simp [he] at hq
    · have hmem := hsub.subset List.mem_cons_self
      rw [hf.mem_children_iff, he] at hmem
      simp at hmem

/-! ### Where the element stands -/

/-- A swap puts the element between the neighbours of the target. -/
theorem Spliced.swap_children (h : Spliced .swap target e d d') (hf : d.Forest) (hp : d.parent? target = some p) :
    ∃ before after, d.children p = before ++ target :: after ∧ d'.children p = before ++ e :: after := by
  obtain ⟨before, after, hsplit⟩ := List.append_of_mem (hf.mem_children_iff.2 hp)
  have hplace : replaceItem target [e] (before ++ target :: after) = before ++ [e] ++ after :=
    replaceItem_append_cons (hsplit ▸ hf.nodup_children p)
  refine ⟨before, after, hsplit, ?_⟩
  rw [h.children, hsplit]
  dsimp only [PatchKind.within, PatchKind.instead]
  rw [ite_self, hplace, List.append_assoc, List.singleton_append]

/-- The other kinds put the element into the target. -/
theorem Spliced.children_target (h : Spliced kind target e d d') (hk : kind.creates = true) (hswap : kind ≠ .swap) :
    d'.children target = kind.within e (d.children target) := by
  rw [h.children, if_pos rfl]
  cases kind with
  | swap => exact absurd rfl hswap
  | append => exact congrArg _ (replaceItem_self target _)
  | prepend => exact congrArg _ (replaceItem_self target _)
  | remove => simp [PatchKind.creates] at hk
  | reset => simp [PatchKind.creates] at hk

/-- Without the element all others stand where they stood, but for a target that it is swapped for. -/
theorem Spliced.erase_children (h : Spliced kind target e d d') (hf : d.Forest) (he : d.parent? e = none)
    (hk : kind.creates = true) (n : NodeId) :
    (d'.children n).erase e = if kind = .swap then (d.children n).erase target else d.children n := by
  have hnot : e ∉ d.children n := by
    rw [hf.mem_children_iff, he]
    simp
  by_cases hswap : kind = .swap
  · subst hswap
    rw [if_pos rfl, h.children]
    dsimp only [PatchKind.within, PatchKind.instead]
    rw [ite_self, erase_replaceItem (hf.nodup_children n) hnot]
  · rw [if_neg hswap]
    by_cases hn : n = target
    · rw [hn] at hnot ⊢
      rw [h.children_target hk hswap]
      cases kind with
      | append =>
        dsimp only [PatchKind.within]
        rw [List.erase_append_right _ hnot, List.erase_cons_head, List.append_nil]
      | prepend => exact List.erase_cons_head _ _
      | swap | remove | reset => exact List.erase_of_not_mem hnot
    · have hinstead : kind.instead target e = [target] := by
        cases kind with
        | append | prepend | reset => rfl
        | swap => exact absurd rfl hswap
        | remove => simp [PatchKind.creates] at hk
      rw [h.children, if_neg hn, hinstead, replaceItem_self, List.erase_of_not_mem hnot]

/-! ### What stays -/

theorem bare?_modify {change : Node → Node} (h : ∀ node, (change node).bare = node.bare) (n m : NodeId) :
    (d.modify n change).bare? m = d.bare? m := by
  unfold bare?
  rw [node?_modify]
  split
  · rw [Option.map_map]
    exact congrArg (fun f => Option.map f (d.node? m)) (funext h)
  · rfl

theorem bare?_detach (d : Document) (n m : NodeId) : (d.detach n).bare? m = d.bare? m := by
  unfold detach
  split
  · rfl
  · rw [bare?_modify, bare?_modify]
    · exact fun _ => rfl
    · exact fun _ => rfl

theorem bare?_attachAt (d : Document) (p c : NodeId) (index : Nat) (m : NodeId) :
    (d.attachAt p c index).bare? m = d.bare? m := by
  unfold attachAt
  rw [bare?_modify, bare?_modify, bare?_detach]
  · exact fun _ => rfl
  · exact fun _ => rfl

theorem bare?_put? (h : put? kind d target e = some d') (m : NodeId) : d'.bare? m = d.bare? m := by
  cases kind with
  | swap =>
    obtain ⟨⟨p, index⟩, -, rfl⟩ := Option.map_eq_some_iff.1 h
    rw [bare?_attachAt, bare?_detach, bare?_detach]
  | append =>
    obtain rfl := Option.some.inj h
    rw [attachLast_eq, bare?_attachAt]
  | prepend =>
    obtain rfl := Option.some.inj h
    rw [attachFirst, bare?_attachAt]
  | remove => rw [Option.some.inj h]
  | reset => rw [Option.some.inj h]

/-- The nodes from `base` on keep their children, if the target and its parent come before. -/
theorem Spliced.preserves (h : Spliced kind target e d d') (hf : d.Forest) (hsize : d.size ≤ d'.size)
    (hbare : ∀ m, d'.bare? m = d.bare? m) (ht : target < base) (hp : ∀ p, d.parent? target = some p → p < base) :
    Preserves base d d' where
  size_le := hsize
  bare? _ := hbare _
  children {n} hn _ := by
    have hne : n ≠ target := Nat.ne_of_gt (Nat.lt_of_lt_of_le ht hn)
    rw [h.children, if_neg hne, hf.replaceItem_children fun he => Nat.not_lt.2 hn (hp n he)]

/-- The element comes to hang below the target or the parent of the target. -/
theorem Spliced.parent_lt (h : Spliced kind target e d d') (hf : d.Forest) (hf' : d'.Forest) (he : d.parent? e = none)
    (ht : target < base) (hp : ∀ p, d.parent? target = some p → p < base) (hparent : d'.parent? e = some p) :
    p < base := by
  by_cases hpt : p = target
  · exact hpt ▸ ht
  · have hmem := hf'.mem_children_iff.2 hparent
    rw [h.children, if_neg hpt] at hmem
    obtain ⟨c, hc, hec⟩ := List.mem_flatMap.1 hmem
    have hcp := hf.mem_children_iff.1 hc
    split at hec
    · rename_i hct
      exact hp p (hct ▸ hcp)
    · rw [List.mem_singleton.1 hec, hcp] at he
      simp at he

theorem preserves_read (base : NodeId) (d : Document) (markup : String) : Preserves base d (d.read markup).1 where
  size_le := (grows_read d markup).size_le
  bare? hn := by
    unfold Document.bare?
    rw [node?_read hn]
  children _ hn := by
    unfold Document.children
    rw [node?_read hn]

/-! ### What changes -/

/-- The tree of a document after an edit at a target. -/
theorem Spliced.graft_tree (h : Spliced kind target e d d') (hf : d.Forest) (hf' : d'.Forest) {label : NodeId → α}
    {hit : α → Bool} (hhit : ∀ m, d.Above root m → (hit (label m) = true ↔ m = target)) (hroot : root ≠ target)
    {scion : Tree α} (hscion : kind.creates = true → d'.tree label e = scion) :
    (d.tree label root).graft { kind, hit, scion } = [d'.tree label root] := by
  -- at each attached node: the graft of its tree is what stands in its place
  suffices ∀ n, d.Above root n → (d.tree label n).graft { kind, hit, scion } =
      (if n = target then kind.instead target e else [n]).map (d'.tree label) by
    rw [this root (Above.refl d root), if_neg hroot, List.map_singleton]
  intro n
  induction n using hf.induction with
  | node n ih =>
    intro hn
    have hchildren : ((d.children n).map (d.tree label)).flatMap
        (Tree.graft { kind, hit, scion }) =
        (replaceItem target (kind.instead target e) (d.children n)).map (d'.tree label) := by
      unfold replaceItem
      rw [List.flatMap_map, List.map_flatMap]
      exact List.flatMap_congr fun c hc => ih c hc (Above.of_parent? (hf.mem_children_iff.1 hc) hn)
    rw [hf.tree_eq, Tree.graft_node, hchildren]
    by_cases he : n = target
    · have htree := hf'.tree_eq label n
      rw [h.children, if_pos he] at htree
      unfold Graft.result
      rw [if_pos ((hhit n hn).2 he), if_pos he]
      subst he
      cases kind with
      | swap => simp [PatchKind.instead, hscion rfl]
      | remove => rfl
      | append => simp [PatchKind.instead, htree, PatchKind.within, hscion rfl]
      | prepend => simp [PatchKind.instead, htree, PatchKind.within, hscion rfl]
      | reset => simp [PatchKind.instead, htree, PatchKind.within]
    · have hmiss : hit (label n) = false := by
        rw [Bool.eq_false_iff]
        exact fun hh => he ((hhit n hn).1 hh)
      rw [Graft.result_of_not_hit hmiss, if_neg he, List.map_singleton, hf'.tree_eq, h.children, if_neg he]

end Document

end PageBindings
