import PageBindings.Proofs.Patch.Remaking

/-!
# What a patch of given targets inserted

`patchElements` takes any list of elements: in any order, some of them more than once, within each other or detached.
Every target has its turn, in which it is passed over or a copy of the fragment is put in for it (`Turn`).  The copies
that are attached in the end are the only new elements below old ones, and the patch lists each of them once; but a
swap takes out what is below its target, so that a copy goes again with a later target that contains its own
(`inserted_attached_iff`).  In document order no target is in a later one (`Document.Forest.not_above_of_before`).
-/

namespace PageBindings

variable {kind : PatchKind} {fragment : Option String} {scene next last : Scene MemoryPage} {d d' : Document}
  {targets rest one inserted : List NodeId} {a base e n p t x : NodeId}

/-! ### Where a copy goes -/

namespace Document

theorem Forest.attached_of_above (hf : d.Forest) (hn : d.Above root n) (ha : d.Above a n) : d.Above root a := by
  rcases above_or_above hn ha with h | h
  · exact h
  · rw [h.eq_of_parent?_eq_none hf.parent?_root]
    exact Above.refl d root

theorem above_iff_of_parent? (hp : d.parent? n = some p) (hne : a ≠ n) : d.Above a n ↔ d.Above a p := by
  rw [above_iff]
  constructor
  · rintro (rfl | ⟨q, hq, h⟩)
    · exact absurd rfl hne
    · obtain rfl := Option.some.inj (hp.symm.trans hq)
      exact h
  · intro h
    exact .inr ⟨p, hp, h⟩

end Document

namespace PatchKind

theorem clears_iff (hk : kind.creates = true) : kind.clears = true ↔ kind = .swap := by
  cases kind with
  | swap => simp [clears]
  | append => simp [clears]
  | prepend => simp [clears]
  | remove => simp [creates] at hk
  | reset => simp [creates] at hk

theorem exists_host? (kind : PatchKind) (hf : d.Forest) (ht : d.Above Document.root t) (hroot : t ≠ Document.root) :
    ∃ p < d.size, kind.host? d t = some p ∧ d.Above Document.root p := by
  unfold host?
  cases kind.clears with
  | true =>
    obtain ⟨p, hp⟩ := ht.exists_parent? hroot
    exact ⟨p, hf.parent_lt_size hp, hp, (Document.above_iff_of_parent? hp hroot.symm).1 ht⟩
  | false => exact ⟨t, ht.lt_size hf.root_lt_size, rfl, ht⟩

theorem host?_of_grows (h : d.Grows d') (ht : t < d.size) (hp : kind.host? d' t = some p) :
    kind.host? d t = some p := by
  unfold host? at hp ⊢
  split
  · rename_i hclears
    rw [if_pos hclears] at hp
    rcases h.parent? ht with heq | heq
    · exact heq.symm.trans hp
    · simp [heq] at hp
  · rename_i hclears
    rwa [if_neg hclears] at hp

/-- If a target is taken out, then what is above its place is what is properly above it. -/
theorem above_host?_iff (hclears : kind.clears = true) (hp : kind.host? d t = some p) :
    d.Above a p ↔ d.ProperlyAbove a t := by
  have hparent : d.parent? t = some p := (if_pos hclears).symm.trans hp
  rw [Document.properlyAbove_iff]
  constructor
  · intro h
    exact ⟨p, hparent, h⟩
  · rintro ⟨q, hq, h⟩
    obtain rfl := Option.some.inj (hparent.symm.trans hq)
    exact h

end PatchKind

/-! ### One turn -/

/-- The turn of a target: it is passed over if it is not attached any more, and gets a copy otherwise. -/
inductive Turn (kind : PatchKind) (fragment : Option String) (scene : Scene MemoryPage) (t : NodeId) :
    Scene MemoryPage → List NodeId → Prop
  | passed (detached : ¬ scene.page.document.Above Document.root t) : Turn kind fragment scene t scene []
  | placed {next : Scene MemoryPage} {copy : NodeId → NodeId} (attached : scene.page.document.Above Document.root t)
      (course : Course kind fragment scene.page.document [t] copy next.page) :
      Turn kind fragment scene t next [copy t]

theorem turn_of_patchElement (hf : scene.page.document.Forest) (hallowed : scene.page.refused = [])
    (hk : kind.creates = true) (ht : t ≠ Document.root ∧ t < scene.page.document.size)
    (h : patchElement kind fragment scene t = (next, .ok one)) : Turn kind fragment scene t next one := by
  cases hattached : scene.page.document.isAttached t with
  | false =>
    rw [patchElement_of_detached hattached] at h
    simp only [Prod.mk.injEq, Except.ok.injEq] at h
    obtain ⟨rfl, rfl⟩ := h
    refine .passed fun ha => ?_
    simp [hf.isAttached_iff.2 ha] at hattached
  | true =>
    have hobstacle : MemoryPage.obstacle? [] kind fragment = none := by
      cases hcause : MemoryPage.obstacle? [] kind fragment with
      | none => rfl
      | some cause =>
        have herror := patchElement_of_obstacle? hattached (hallowed ▸ hcause)
        rw [h] at herror
        simp at herror
    have habove := hf.isAttached_iff.1 hattached
    have hstart : Course kind fragment scene.page.document [] id scene.page :=
      ⟨Document.Remade.refl kind id _, fun _ _ hmem => absurd hmem List.not_mem_nil, hallowed⟩
    obtain ⟨next', e, hpatched, hcourse⟩ :=
      hstart.put hf hk hobstacle ht.2 ht.1 habove List.not_mem_nil
    rw [h] at hpatched
    simp only [Prod.mk.injEq, Except.ok.injEq] at hpatched
    obtain ⟨rfl, rfl⟩ := hpatched
    have hplaced : Turn kind fragment scene t next [Function.update id t e t] := .placed habove hcourse
    rwa [Function.update_self] at hplaced

namespace Turn

theorem grows (h : Turn kind fragment scene t next one) : scene.page.document.Grows next.page.document := by
  cases h with
  | passed => exact .refl _
  | placed _ course => exact course.remade.toGrows

theorem refused (h : Turn kind fragment scene t next one) (hallowed : scene.page.refused = []) :
    next.page.refused = [] := by
  cases h with
  | passed => exact hallowed
  | placed _ course => exact course.refused

/-- A swap takes its target out, with all below it. -/
theorem attached_iff (h : Turn kind fragment scene t next one) (hf : scene.page.document.Forest)
    (hroot : t ≠ Document.root) (hn : n < scene.page.document.size) :
    next.page.document.Above Document.root n ↔
      scene.page.document.Above Document.root n ∧ (kind.clears = true → ¬ scene.page.document.Above t n) := by
  cases h with
  | passed detached =>
    -- what is attached is not below a node that is detached
    refine ⟨fun ha => ⟨ha, fun _ htn => detached (hf.attached_of_above ha htn)⟩, And.left⟩
  | placed _ course =>
    rw [course.remade.attached_iff hf (by simpa using hroot.symm) hn]
    simp

theorem parent? (h : Turn kind fragment scene t next one) (hf : scene.page.document.Forest)
    (hn : n < scene.page.document.size) (hne : n ≠ t) :
    next.page.document.parent? n = scene.page.document.parent? n := by
  cases h with
  | passed => rfl
  | placed _ course =>
    rw [course.remade.parent?_eq hf hn, if_neg]
    rintro ⟨-, hmem⟩
    exact hne (List.mem_singleton.1 hmem)

theorem new (h : Turn kind fragment scene t next one) (hk : kind.creates = true) (he : e ∈ one) :
    scene.page.document.size ≤ e ∧ e < next.page.document.size := by
  cases h with
  | passed => exact absurd he List.not_mem_nil
  | placed _ course =>
    obtain rfl := List.mem_singleton.1 he
    exact course.remade.fresh hk (List.mem_singleton_self t)

theorem nodup (h : Turn kind fragment scene t next one) : one.Nodup := by
  cases h with
  | passed => exact List.nodup_nil
  | placed => exact List.nodup_singleton _

end Turn

theorem Patched.preserves {page page' : MemoryPage} {result : Except PatchError (List NodeId)}
    (h : Patched kind fragment page t page' result) (hk : kind.creates = true) (hf : page.document.Forest)
    (ht : t < base) (hparent : ∀ p, page.document.parent? t = some p → p < base) :
    Document.Preserves base page.document page'.document := by
  cases h with
  | skipped => exact .refl base _
  | lacking => exact .refl base _
  | refused _ html => exact Document.preserves_read base _ html
  | put attached _ _ he hput =>
    have hlt := (hf.isAttached_iff.1 attached).lt_size hf.root_lt_size
    exact Document.preserves_put? hf hk hlt he hput ht hparent
  | altered local_ => simp [hk] at local_

/-! ### All turns -/

/-- The turns of targets, one after the other. -/
inductive Turns (kind : PatchKind) (fragment : Option String) :
    Scene MemoryPage → List NodeId → Scene MemoryPage → List NodeId → Prop
  | nil (scene : Scene MemoryPage) : Turns kind fragment scene [] scene []
  | cons {scene next last : Scene MemoryPage} {t : NodeId} {rest one more : List NodeId}
      (patched : patchElement kind fragment scene t = (next, .ok one)) (turn : Turn kind fragment scene t next one)
      (turns : Turns kind fragment next rest last more) : Turns kind fragment scene (t :: rest) last (one ++ more)

theorem turns_of_patchTargets (hf : scene.page.document.Forest) (hallowed : scene.page.refused = [])
    (hk : kind.creates = true) (htargets : ∀ t ∈ targets, t ≠ Document.root ∧ t < scene.page.document.size)
    (h : patchTargets kind fragment scene targets = (last, .ok inserted)) :
    Turns kind fragment scene targets last inserted := by
  induction targets generalizing scene inserted with
  | nil =>
    simp only [patchTargets, Prod.mk.injEq, Except.ok.injEq] at h
    obtain ⟨rfl, rfl⟩ := h
    exact .nil scene
  | cons t rest ih =>
    obtain ⟨next, one, more, hone, hmore, rfl⟩ := patchTargets_cons_eq_ok h
    rw [List.forall_mem_cons] at htargets
    have hturn := turn_of_patchElement hf hallowed hk htargets.1 hone
    refine .cons hone hturn (ih (hturn.grows.forest hf) (hturn.refused hallowed) (fun u hu => ?_) hmore)
    exact ⟨(htargets.2 u hu).1, Nat.lt_of_lt_of_le (htargets.2 u hu).2 hturn.grows.size_le⟩

namespace Turns

theorem patchTargets_eq (h : Turns kind fragment scene targets last inserted) :
    patchTargets kind fragment scene targets = (last, .ok inserted) := by
  induction h with
  | nil => rfl
  | cons patched _ _ ih =>
    rw [patchTargets, patched]
    simp only [ih]

theorem grows (h : Turns kind fragment scene targets last inserted) :
    scene.page.document.Grows last.page.document := by
  induction h with
  | nil => exact .refl _
  | cons _ turn _ ih => exact turn.grows.trans ih

/-- Swaps take their targets out, with all below them; whether they have gone already does not matter. -/
theorem attached_iff (h : Turns kind fragment scene targets last inserted) (hf : scene.page.document.Forest)
    (hroot : ∀ t ∈ targets, t ≠ Document.root) (hn : n < scene.page.document.size) :
    last.page.document.Above Document.root n ↔ scene.page.document.Above Document.root n ∧
      (kind.clears = true → ∀ t ∈ targets, ¬ scene.page.document.Above t n) := by
  induction h with
  | nil => simp
  | @cons scene next last t rest one more _ turn _ ih =>
    rw [List.forall_mem_cons] at hroot
    have hgrows := turn.grows
    -- as long as `n` is attached, the nodes above it are the same
    have hsame : next.page.document.Above Document.root n →
        ∀ u, next.page.document.Above u n ↔ scene.page.document.Above u n :=
      fun ha u => ⟨hgrows.above hf hn, hgrows.above_of_attached hf ha⟩
    rw [ih (hgrows.forest hf) hroot.2 (Nat.lt_of_lt_of_le hn hgrows.size_le)]
    constructor
    · rintro ⟨hnext, hrest⟩
      obtain ⟨hattached, ht⟩ := (turn.attached_iff hf hroot.1 hn).1 hnext
      refine ⟨hattached, fun hclears => List.forall_mem_cons.2 ⟨ht hclears, fun u hu hun => ?_⟩⟩
      exact hrest hclears u hu ((hsame hnext u).2 hun)
    · rintro ⟨hattached, hall⟩
      have hnext : next.page.document.Above Document.root n :=
        (turn.attached_iff hf hroot.1 hn).2 ⟨hattached, fun hclears => hall hclears t List.mem_cons_self⟩
      refine ⟨hnext, fun hclears u hu hun => ?_⟩
      exact hall hclears u (List.mem_cons_of_mem t hu) ((hsame hnext u).1 hun)

theorem parent? (h : Turns kind fragment scene targets last inserted) (hf : scene.page.document.Forest)
    (hn : n < scene.page.document.size) (hnot : n ∉ targets) :
    last.page.document.parent? n = scene.page.document.parent? n := by
  induction h with
  | nil => rfl
  | cons _ turn _ ih =>
    rw [List.mem_cons, not_or] at hnot
    rw [ih (turn.grows.forest hf) (Nat.lt_of_lt_of_le hn turn.grows.size_le) hnot.2, turn.parent? hf hn hnot.1]

/-- The new elements are numbered in the order in which they are put in. -/
theorem nodup (h : Turns kind fragment scene targets last inserted) (hk : kind.creates = true) :
    inserted.Nodup ∧ ∀ e ∈ inserted, scene.page.document.size ≤ e ∧ e < last.page.document.size := by
  induction h with
  | nil => exact ⟨List.nodup_nil, fun e he => absurd he List.not_mem_nil⟩
  | cons _ turn turns ih =>
    obtain ⟨hnodup, hnew⟩ := ih
    refine ⟨List.nodup_append.2 ⟨turn.nodup, hnodup, fun a ha b hb => Nat.ne_of_lt ?_⟩, fun e he => ?_⟩
    · exact Nat.lt_of_lt_of_le (turn.new hk ha).2 (hnew b hb).1
    · rcases List.mem_append.1 he with he | he
      · exact ⟨(turn.new hk he).1, Nat.lt_of_lt_of_le (turn.new hk he).2 turns.grows.size_le⟩
      · exact ⟨Nat.le_trans turn.grows.size_le (hnew e he).1, (hnew e he).2⟩

theorem preserves (h : Turns kind fragment scene targets last inserted) (hf : scene.page.document.Forest)
    (hk : kind.creates = true) (ht : ∀ t ∈ targets, t < base ∧ t < scene.page.document.size)
    (hparent : ∀ t ∈ targets, ∀ p, scene.page.document.parent? t = some p → p < base) :
    Document.Preserves base scene.page.document last.page.document := by
  induction h with
  | nil => exact .refl base _
  | @cons scene next last t rest one more patched turn _ ih =>
    rw [List.forall_mem_cons] at ht hparent
    have hone := patchElement_patched kind fragment scene t
    rw [patched] at hone
    refine (hone.preserves hk hf ht.1.1 hparent.1).trans
      (ih (turn.grows.forest hf) (fun u hu => ?_) fun u hu p hp => ?_)
    · exact ⟨(ht.2 u hu).1, Nat.lt_of_lt_of_le (ht.2 u hu).2 turn.grows.size_le⟩
    · rcases turn.grows.parent? (ht.2 u hu).2 with heq | heq
      · exact hparent.2 u hu p (heq ▸ hp)
      · simp [heq] at hp

/-- Every new element was put in at the turn of one of the targets. -/
theorem exists_turn_of_mem (h : Turns kind fragment scene targets last inserted) (hx : x ∈ inserted) :
    ∃ before t after mid next first more, targets = before ++ t :: after ∧
      Turns kind fragment scene before mid first ∧
      patchElement kind fragment mid t = (next, .ok [x]) ∧ Turn kind fragment mid t next [x] ∧
      Turns kind fragment next after last more := by
  induction h with
  | nil => exact absurd hx List.not_mem_nil
  | @cons scene next last t rest one more patched turn turns ih =>
    rcases List.mem_append.1 hx with hx | hx
    · have hone : one = [x] := by
        cases turn with
        | passed => exact absurd hx List.not_mem_nil
        | placed => rw [List.mem_singleton.1 hx]
      subst hone
      exact ⟨[], t, rest, scene, next, [], more, rfl, .nil scene, patched, turn, turns⟩
    · obtain ⟨before, u, after, mid, next', first, more', rfl, hbefore, hpatched, hturn, hafter⟩ := ih hx
      exact ⟨t :: before, u, after, mid, next', one ++ first, more', rfl, .cons patched turn hbefore, hpatched, hturn,
        hafter⟩

end Turns

/-! ### The fate of a copy -/

/-- An element that was put in at the turn of the target `t`, after those in `before` and before those in `after`. -/
structure PutIn (kind : PatchKind) (fragment : Option String) (scene : Scene MemoryPage) (before : List NodeId)
    (t : NodeId) (after : List NodeId) (last : Scene MemoryPage) (x : NodeId) : Prop where
  attached : scene.page.document.Above Document.root t
  clear (hclears : kind.clears = true) : ∀ u ∈ before, ¬ scene.page.document.Above u t
  parent? : ∃ p < scene.page.document.size, kind.host? scene.page.document t = some p ∧
    last.page.document.parent? x = some p
  new : scene.page.document.size ≤ x
  copied : ∃ html first k, fragment = some html ∧ (Document.empty.read html).2.head? = some first ∧ x = first + k ∧
    scene.page.document.size ≤ k + 1 ∧ last.page.document.Holds (Document.empty.read html).1 k

theorem putIn_of_turns {mid : Scene MemoryPage} {before after first more : List NodeId}
    (hf : scene.page.document.Forest) (hk : kind.creates = true)
    (htargets : ∀ u ∈ before ++ t :: after, u ≠ Document.root ∧ u < scene.page.document.size)
    (hbefore : Turns kind fragment scene before mid first) (hturn : Turn kind fragment mid t next [x])
    (hafter : Turns kind fragment next after last more) : PutIn kind fragment scene before t after last x := by
  obtain ⟨hbelow, ⟨hroot, hlt⟩, hlater⟩ := List.forall_mem_append.1 htargets |>.imp_right List.forall_mem_cons.1
  have hgrows := hbefore.grows
  have hmid := hgrows.forest hf
  have hnext := hturn.grows.forest hmid
  have hlt' : t < mid.page.document.size := Nat.lt_of_lt_of_le hlt hgrows.size_le
  cases hturn with
  | @placed _ copy hattached hcourse =>
    obtain ⟨hat, hclear⟩ := (hbefore.attached_iff hf (fun u hu => (hbelow u hu).1) hlt).1 hattached
    obtain ⟨p, hp, hhost, -⟩ := PatchKind.exists_host? kind hmid hattached hroot
    have hhost' := PatchKind.host?_of_grows hgrows hlt hhost
    obtain ⟨hnew, hsize⟩ := hcourse.remade.fresh hk (List.mem_singleton_self t)
    have hnew' := Nat.le_trans hgrows.size_le hnew
    have hold : p < scene.page.document.size := by
      obtain ⟨q, hq, hhostq, -⟩ := PatchKind.exists_host? kind hf hat hroot
      obtain rfl := Option.some.inj (hhost'.symm.trans hhostq)
      exact hq
    have hparent : last.page.document.parent? (copy t) = some p := by
      -- the copy is not among the later targets, which are old
      rw [hafter.parent? hnext hsize fun hmem => absurd (hlater _ hmem).2 (Nat.not_lt.2 hnew')]
      exact hcourse.remade.parent?_copy hmid hk (List.mem_singleton_self t) hhost hp
    refine ⟨hat, hclear, ⟨p, hold, hhost', hparent⟩, hnew', ?_⟩
    obtain ⟨html, root, k, hhtml, hroot, heq, hbase, hcopy⟩ := hcourse.copied hk (List.mem_singleton_self t)
    have hbase' := Nat.le_trans hgrows.size_le hbase
    have hgrown := hgrows.trans hcourse.remade.toGrows
    have hpreserves : Document.Preserves scene.page.document.size next.page.document last.page.document := by
      refine hafter.preserves hnext hk (fun u hu => ?_) fun u hu q hq => ?_
      · exact ⟨(hlater u hu).2, Nat.lt_of_lt_of_le (hlater u hu).2 hgrown.size_le⟩
      · rcases hgrown.parent? (hlater u hu).2 with heq | heq
        · exact hf.parent_lt_size (heq ▸ hq)
        · simp [heq] at hq
    exact ⟨html, root, k, hhtml, hroot, heq, hbase', hcopy.preserves hpreserves hbase'⟩

namespace PutIn

variable {before after : List NodeId}

/-- A copy stays unless a later target is taken out that its own target is in. -/
theorem attached_iff (h : PutIn kind fragment scene before t after last x)
    (hturns : Turns kind fragment scene (before ++ t :: after) last inserted) (hf : scene.page.document.Forest)
    (hroot : ∀ u ∈ before ++ t :: after, u ≠ Document.root) :
    last.page.document.Above Document.root x ↔
      (kind.clears = true → ∀ u ∈ after, ¬ scene.page.document.ProperlyAbove u t) := by
  obtain ⟨p, hp, hhost, hparent⟩ := h.parent?
  have hne : Document.root ≠ x := Nat.ne_of_lt (Nat.lt_of_lt_of_le hf.root_lt_size h.new)
  have hpa : scene.page.document.Above Document.root p := by
    obtain ⟨q, -, hhostq, hqa⟩ := PatchKind.exists_host? kind hf h.attached
      (hroot t (List.mem_append_right _ List.mem_cons_self))
    obtain rfl := Option.some.inj (hhost.symm.trans hhostq)
    exact hqa
  rw [Document.above_iff_of_parent? hparent hne, hturns.attached_iff hf hroot hp]
  constructor
  · rintro ⟨-, hall⟩ hclears u hu hut
    exact hall hclears u (List.mem_append_right _ (List.mem_cons_of_mem t hu))
      ((PatchKind.above_host?_iff hclears hhost).2 hut)
  · intro hlater
    refine ⟨hpa, fun hclears u hu hup => ?_⟩
    have hut := (PatchKind.above_host?_iff hclears hhost).1 hup
    rcases List.mem_append.1 hu with hu | hu
    · exact h.clear hclears u hu (Document.above_iff_eq_or_properlyAbove.2 (.inr hut))
    · rcases List.mem_cons.1 hu with rfl | hu
      · exact hf.acyclic u hut
      · exact hlater hclears u hu hut

theorem exists_sprouted (h : PutIn kind fragment scene before t after last x)
    (hgrows : scene.page.document.Grows last.page.document) (hf : scene.page.document.Forest)
    (hx : last.page.document.Above Document.root x) :
    ∃ html, fragment = some html ∧ scene.page.document.Sprouted last.page.document html x := by
  obtain ⟨p, hp, -, hparent⟩ := h.parent?
  obtain ⟨html, first, k, hhtml, hfirst, rfl, hbase, hcopy⟩ := h.copied
  have hne : Document.root ≠ first + k := Nat.ne_of_lt (Nat.lt_of_lt_of_le hf.root_lt_size h.new)
  have hpa := (Document.above_iff_of_parent? hparent hne).1 hx
  exact ⟨html, hhtml, hcopy.sprouted (hgrows.forest hf) hbase hfirst hp hpa hparent⟩

end PutIn

/-- What is new and attached below an old node was inserted. -/
theorem mem_inserted_of_parent? (h : patchTargets kind fragment scene targets = (last, .ok inserted))
    (hf : scene.page.document.Forest) (hx : last.page.document.Above Document.root x)
    (hnew : scene.page.document.size ≤ x) (hp : p < scene.page.document.size)
    (hparent : last.page.document.parent? x = some p) (hinserted : ∀ e ∈ inserted, scene.page.document.size ≤ e) :
    x ∈ inserted := by
  have hgrows := (edited_patchTargets kind fragment scene targets).grows
  rw [h] at hgrows
  rcases attached_patchTargets h hf hx with hold | ⟨e, he, hex⟩
  · exact absurd (hold.lt_size hf.root_lt_size) (Nat.not_lt.2 hnew)
  · by_cases heq : e = x
    · exact heq ▸ he
    · -- otherwise the inserted element is above the old node, and old
      have hep := hgrows.above hf hp ((Document.above_iff_of_parent? hparent heq).1 hex)
      exact absurd (hf.above_lt_size hep hp) (Nat.not_lt.2 (hinserted e he))

/--
A patch of given elements with new content, on a page that refuses nothing, lists each copy that it put in once.
Among what is attached in the end these are the elements that are new and below an old node.  Each was put in at the
turn of one target, and is attached in the end unless the patch is a swap and that target is in a later one, which
took it out again; and then it is a copy of the first element of the fragment, new with all below it.
-/
theorem inserted_attached_iff {outcome : PatchOutcome} (hf : scene.page.document.Forest)
    (hallowed : scene.page.refused = []) (hk : kind.creates = true)
    (htargets : ∀ t ∈ targets, t ≠ Document.root ∧ t < scene.page.document.size)
    (h : patchElements kind fragment scene targets = (last, .ok outcome)) :
    outcome.inserted.Nodup ∧
      (∀ x, Page.isConnected last.page x = true → (x ∈ outcome.inserted ↔ scene.page.document.size ≤ x ∧
        ∃ p < scene.page.document.size, last.page.document.parent? x = some p)) ∧
      ∀ x ∈ outcome.inserted, ∃ before target after mid first next, targets = before ++ target :: after ∧
        patchTargets kind fragment scene before = (mid, .ok first) ∧
        patchElement kind fragment mid target = (next, .ok [x]) ∧
        (Page.isConnected last.page x = true ↔
          (kind = .swap → ∀ later ∈ after, ¬ scene.page.document.ProperlyAbove later target)) ∧
        (Page.isConnected last.page x = true →
          ∃ html, fragment = some html ∧ scene.page.document.Sprouted last.page.document html x) := by
  have hpatched : patchTargets kind fragment scene targets = (last, .ok outcome.inserted) := by
    unfold patchElements at h
    cases hresult : patchTargets kind fragment scene targets with
    | mk final result =>
      rw [hresult] at h
      cases result with
      | error cause => simp [Except.map] at h
      | ok inserted =>
        simp only [Except.map, Prod.mk.injEq, Except.ok.injEq] at h
        obtain ⟨rfl, rfl⟩ := h
        rfl
  have hturns := turns_of_patchTargets hf hallowed hk htargets hpatched
  have hroot : ∀ t ∈ targets, t ≠ Document.root := fun t ht => (htargets t ht).1
  have hconnected : ∀ x, Page.isConnected last.page x = true ↔ last.page.document.Above Document.root x :=
    fun x => (hturns.grows.forest hf).isAttached_iff
  obtain ⟨hnodup, hnew⟩ := hturns.nodup hk
  have hputIn : ∀ x ∈ outcome.inserted, ∃ before target after mid first next, targets = before ++ target :: after ∧
      patchTargets kind fragment scene before = (mid, .ok first) ∧
      patchElement kind fragment mid target = (next, .ok [x]) ∧
      PutIn kind fragment scene before target after last x := by
    intro x hx
    obtain ⟨before, t, after, mid, next, first, more, rfl, hbefore, hone, hturn, hafter⟩ :=
      hturns.exists_turn_of_mem hx
    exact ⟨before, t, after, mid, first, next, rfl, hbefore.patchTargets_eq, hone,
      putIn_of_turns hf hk htargets hbefore hturn hafter⟩
  refine ⟨hnodup, fun x hx => ⟨fun hmem => ?_, ?_⟩, fun x hx => ?_⟩
  · obtain ⟨before, t, after, mid, first, next, -, -, -, hp⟩ := hputIn x hmem
    obtain ⟨p, hlt, -, hparent⟩ := hp.parent?
    exact ⟨hp.new, p, hlt, hparent⟩
  · rintro ⟨hsize, p, hp, hparent⟩
    exact mem_inserted_of_parent? hpatched hf ((hconnected x).1 hx) hsize hp hparent fun e he => (hnew e he).1
  · obtain ⟨before, t, after, mid, first, next, rfl, hbefore, hone, hp⟩ := hputIn x hx
    refine ⟨before, t, after, mid, first, next, rfl, hbefore, hone, ?_, fun hx => ?_⟩
    · rw [hconnected, ← PatchKind.clears_iff hk]
      exact hp.attached_iff hturns hf hroot
    · exact hp.exists_sprouted hturns.grows hf ((hconnected x).1 hx)

/-- A paragraph with an item in it, and another element. -/
def itemInParagraph : Scene MemoryPage :=
  { page := .withBody "<p><i></i></p><u></u>" }

/-- The copy for the item goes with the paragraph, whose turn comes later; then the item is passed over. -/
theorem inserted_attached_iff_itemFirst :
    ∃ last before target after later, patchElements .swap (some "<b></b>") itemInParagraph [3, 2, 3, 4] =
        (last, .ok { kind := .swap, inserted := [5, 6, 7] }) ∧
      [3, 2, 3, 4] = before ++ target :: after ∧ later ∈ after ∧
      itemInParagraph.page.document.ProperlyAbove later target ∧ Page.isConnected last.page 5 = false ∧
      Page.isConnected last.page 7 = true ∧ ∃ p < 5, last.page.document.parent? 7 = some p := by
  have hforest : itemInParagraph.page.document.Forest := MemoryPage.forest_withBody _
  have hsize : itemInParagraph.page.document.size = 5 := by decide +kernel
  have hok : (patchElements .swap (some "<b></b>") itemInParagraph [3, 2, 3, 4]).2 =
      .ok { kind := .swap, inserted := [5, 6, 7] } := by decide +kernel
  have hpatch : patchElements .swap (some "<b></b>") itemInParagraph [3, 2, 3, 4] =
      ((patchElements .swap (some "<b></b>") itemInParagraph [3, 2, 3, 4]).1,
        .ok { kind := .swap, inserted := [5, 6, 7] }) := Prod.ext rfl hok
  have htargets : ∀ t ∈ [3, 2, 3, 4], t ≠ Document.root ∧ t < itemInParagraph.page.document.size := by
    rw [hsize]
    decide
  obtain ⟨-, hmem, hstays⟩ := inserted_attached_iff hforest rfl rfl htargets hpatch
  have hgone : Page.isConnected (patchElements .swap (some "<b></b>") itemInParagraph [3, 2, 3, 4]).1.page 5 =
      false := by decide +kernel
  have hthere : Page.isConnected (patchElements .swap (some "<b></b>") itemInParagraph [3, 2, 3, 4]).1.page 7 =
      true := by decide +kernel
  obtain ⟨before, target, after, -, -, -, hsplit, -, -, hiff, -⟩ := hstays 5 (by decide)
  rw [hgone] at hiff
  obtain ⟨later, hlater, habove⟩ : ∃ later ∈ after, itemInParagraph.page.document.ProperlyAbove later target := by
    by_contra hnone
    push Not at hnone
    exact absurd (hiff.2 fun _ => hnone) Bool.false_ne_true
  obtain ⟨-, p, hp, hparent⟩ := (hmem 7 hthere).1 (by decide)
  exact ⟨_, before, target, after, later, hpatch, hsplit, hlater, habove, hgone, hthere, p, hsize ▸ hp, hparent⟩

/-- An element that a patch reports as inserted need not be in the document when the patch is done. -/
theorem inserted_not_connected :
    itemInParagraph.page.document.Forest ∧ itemInParagraph.page.refused = [] ∧
      (∀ t ∈ [3, 2], t ≠ Document.root ∧ t < itemInParagraph.page.document.size) ∧
      ∃ last, patchElements .swap (some "<b></b>") itemInParagraph [3, 2] =
          (last, .ok { kind := .swap, inserted := [5, 6] }) ∧
        5 ∈ [5, 6] ∧ Page.isConnected last.page 5 = false := by
  refine ⟨MemoryPage.forest_withBody _, rfl, by decide +kernel, ?_⟩
  have hok : (patchElements .swap (some "<b></b>") itemInParagraph [3, 2]).2 =
      .ok { kind := .swap, inserted := [5, 6] } := by decide +kernel
  exact ⟨_, Prod.ext rfl hok, by decide, by decide +kernel⟩

end PageBindings
