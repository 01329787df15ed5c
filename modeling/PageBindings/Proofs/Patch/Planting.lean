import PageBindings.Proofs.Page.Features
import PageBindings.Proofs.Page.Views
import PageBindings.Proofs.Patch.Basic

/-!
# Patching targets is a graft

`Planting` is what a patch does at each of its targets: whether the page admits it, and which tree it puts in.
Patching targets grafts that tree onto the tree of the document (`Planted`), one target at a time: a target that is
attached is hit, and one that an earlier target has taken along is not in the tree any more (`patchElement_planted`);
grafts of one kind, one after the other, are a graft that hits all their targets (`Planted.trans`).

How a patch comes to its targets, or fails before, is `Sought`; an obstacle on the way fails it at its first target
(`patch_of_obstacle?`).
-/

namespace PageBindings

/-! ### What stands in the way -/

namespace MemoryPage

/-- What a page must allow for a patch of the kind to change its document. -/
def Capability.ofKind? : PatchKind → Option Capability
  | .swap => some .replace
  | .append => some .append
  | .prepend => some .prepend
  | .remove => some .remove
  | .reset => none

/-- Whether patches of the kind go through. -/
def admits (refused : List Capability) (kind : PatchKind) : Bool :=
  (Capability.ofKind? kind).all fun capability => !refused.contains capability

/-- What a patch lacks that has targets: content, or leave to make it. -/
def obstacle? (refused : List Capability) (kind : PatchKind) (fragment : Option String) : Option PatchError :=
  if kind.creates then
    match fragment with
    | none => some (.content (.missing kind))
    | some html =>
      if refused.contains .create then some (.page { operation := Capability.create.name, detail := "refused" })
      else if Markup.hasElement html then none
      else some (.content .noElement)
  else none

end MemoryPage

/-- What a patch does at its targets; `source` is what it reads, and `sprout` the root in there that it puts in. -/
structure Planting where
  kind : PatchKind
  admitted : Bool
  source : Document
  sprout : NodeId
  /-- The features of the nodes of `source`, once they are bound. -/
  features : NodeId → Features

namespace Planting

/-- The tree that is put in. -/
def scion (planting : Planting) : Tree Features :=
  planting.source.tree planting.features planting.sprout

/-- Whether an element with these features is to be hit. -/
def hits (planting : Planting) (targets : List NodeId) (features : Features) : Bool :=
  planting.admitted && features.number.any fun n => targets.contains n

/-- What the patch makes of the tree of the document. -/
def graft (planting : Planting) (targets : List NodeId) : Graft Features :=
  { kind := planting.kind, hit := planting.hits targets, scion := planting.scion }

end Planting

/-- Labels for the nodes of a document, with numbers for those below `known`. -/
def Numbers (known : Nat) (label : NodeId → Features) : Prop :=
  ∀ n, (label n).number = if n < known then some n else none

variable {planting : Planting} {label : NodeId → Features} {known n : Nat} {targets : List NodeId}

theorem Numbers.hits_iff (h : Numbers known label) (ht : ∀ t ∈ targets, t < known) :
    planting.hits targets (label n) = true ↔ planting.admitted = true ∧ n ∈ targets := by
  unfold Planting.hits
  rw [h n, Bool.and_eq_true]
  refine and_congr_right fun _ => ?_
  split
  · simp
  · rename_i hn
    exact iff_of_false (by simp) fun hmem => hn (ht n hmem)

/-- What was planted at targets: the new elements, each a copy of the source, and the graft. -/
structure Planted (planting : Planting) (known base : Nat) (targets : List NodeId) (d d' : Document)
    (inserted : List NodeId) : Prop where
  grows : d.Grows d'
  preserves : Document.Preserves base d d'
  new : ∀ e ∈ inserted, d.size ≤ e ∧ e < d'.size
  parent? : ∀ e ∈ inserted, ∀ p, d'.parent? e = some p → p < base
  sprout : ∀ e ∈ inserted, 0 < planting.sprout ∧ planting.sprout < planting.source.size
  copy : ∀ e ∈ inserted, ∃ k, e = planting.sprout + k ∧ base ≤ k + 1 ∧ d'.Holds planting.source k
  nodup : inserted.Nodup
  graft : ∀ label, Numbers known label →
    (∀ k, planting.sprout + k ∈ inserted → ∀ j, planting.source.Above planting.sprout j →
      label (j + k) = planting.features j) →
    (d.tree label Document.root).graft (planting.graft targets) = [d'.tree label Document.root]

namespace Planted

variable {base : Nat} {d d' d'' : Document} {inserted more : List NodeId} {target : NodeId}

theorem of_not_hit (hf : d.Forest) (hgrows : d.Grows d') (hpreserves : Document.Preserves base d d')
    (htree : ∀ label : NodeId → Features, d'.tree label Document.root = d.tree label Document.root)
    (ht : ∀ t ∈ targets, t < known)
    (hmiss : ∀ t ∈ targets, d.Above Document.root t → planting.admitted = false) :
    Planted planting known base targets d d' [] where
  grows := hgrows
  preserves := hpreserves
  new e he := absurd he List.not_mem_nil
  parent? e he := absurd he List.not_mem_nil
  sprout e he := absurd he List.not_mem_nil
  copy e he := absurd he List.not_mem_nil
  nodup := List.nodup_nil
  graft label hlabel _ := by
    rw [htree, Tree.graft_of_not_hit]
    intro f hlabels
    obtain ⟨m, hm, rfl⟩ := hf.mem_labels_tree_iff.1 hlabels
    show planting.hits targets (label m) = false
    rw [Bool.eq_false_iff]
    intro hhit
    obtain ⟨hadmitted, hmem⟩ := (hlabel.hits_iff ht).1 hhit
    exact absurd (hmiss m hmem hm) (by simp [hadmitted])

theorem trans (h : Planted planting known base [target] d d' inserted)
    (h' : Planted planting known base targets d' d'' more) (htarget : target ∉ targets)
    (hnumber : ∀ f ∈ planting.scion.labels, f.number = none) :
    Planted planting known base (target :: targets) d d'' (inserted ++ more) where
  grows := h.grows.trans h'.grows
  preserves := h.preserves.trans h'.preserves
  new e he := by
    rcases List.mem_append.1 he with he | he
    · exact ⟨(h.new e he).1, Nat.lt_of_lt_of_le (h.new e he).2 h'.preserves.size_le⟩
    · exact ⟨Nat.le_trans h.preserves.size_le (h'.new e he).1, (h'.new e he).2⟩
  parent? e he p hp := by
    rcases List.mem_append.1 he with he | he
    · rcases h'.grows.parent? (h.new e he).2 with heq | heq
      · exact h.parent? e he p (heq ▸ hp)
      · simp [heq] at hp
    · exact h'.parent? e he p hp
  sprout e he := (List.mem_append.1 he).elim (h.sprout e) (h'.sprout e)
  copy e he := by
    rcases List.mem_append.1 he with he | he
    · obtain ⟨k, hk, hbase, hcopy⟩ := h.copy e he
      exact ⟨k, hk, hbase, hcopy.preserves h'.preserves hbase⟩
    · exact h'.copy e he
  nodup := by
    refine List.nodup_append.2 ⟨h.nodup, h'.nodup, fun a ha b hb => Nat.ne_of_lt ?_⟩
    exact Nat.lt_of_lt_of_le (h.new a ha).2 (h'.new b hb).1
  graft label hlabel hcopies := by
    have hfirst := h.graft label hlabel fun k hk => hcopies k (List.mem_append_left _ hk)
    have hrest := h'.graft label hlabel fun k hk => hcopies k (List.mem_append_right _ hk)
    -- the grafts are one if no element is hit by both, and the tree that is put in by neither
    have hone : ∀ f : Features, planting.hits [target] f = true → planting.hits targets f = false := by
      intro f hf
      obtain ⟨hadmitted, hnumber⟩ := (Bool.and_eq_true _ _).mp hf
      cases hn : f.number with
      | none => simp [hn] at hnumber
      | some n =>
        have he : n = target := by simpa [hn] using hnumber
        unfold Planting.hits
        rw [hn, he]
        simp [htarget]
    have hboth : planting.hits (target :: targets) =
        fun f => planting.hits [target] f || planting.hits targets f := by
      funext f
      unfold Planting.hits
      cases planting.admitted <;> cases f.number <;> simp
    have hscion : planting.scion.graft { planting.graft targets with hit := planting.hits targets } =
        [planting.scion] := by
      refine Tree.graft_of_not_hit fun f hf => ?_
      show planting.hits targets f = false
      unfold Planting.hits
      rw [hnumber f hf]
      simp
    have hfuse := Tree.graft_graft (g := planting.graft targets) hone hscion (d.tree label Document.root)
    calc (d.tree label Document.root).graft (planting.graft (target :: targets))
        = ((d.tree label Document.root).graft (planting.graft [target])).flatMap
            (Tree.graft (planting.graft targets)) := by
          unfold Planting.graft at hfuse ⊢
          rw [hboth, ← hfuse]
      _ = [d''.tree label Document.root] := by
          rw [hfirst, List.flatMap_singleton, hrest]

end Planted

/-! ### The course of a patch -/

/-- A document in the course of a patch: the nodes before `base` are those from before it. -/
structure Ground (known base : Nat) (d : Document) : Prop where
  forest : d.Forest
  known_le : known ≤ base
  base_le : base ≤ d.size
  parent_lt {n p : NodeId} (hn : n < base) (hp : d.parent? n = some p) : p < base

/-- The planting is that of a patch of the kind with the fragment, where the capabilities are refused. -/
structure Planting.Suits (planting : Planting) (refused : List MemoryPage.Capability) (kind : PatchKind)
    (fragment : Option String) : Prop where
  kind_eq : planting.kind = kind
  admitted_eq : planting.admitted = MemoryPage.admits refused kind
  read {html : String} (h : fragment = some html) (has : Markup.hasElement html = true) :
    planting.source = (Document.empty.read html).1 ∧
      (Document.empty.read html).2.head? = some planting.sprout
  number : ∀ f ∈ planting.scion.labels, f.number = none

theorem Ground.grows {base : Nat} {d d' : Document} (h : Ground known base d) (hd : d.Grows d') :
    Ground known base d' where
  forest := hd.forest h.forest
  known_le := h.known_le
  base_le := Nat.le_trans h.base_le hd.size_le
  parent_lt {n p} hn hp := by
    rcases hd.parent? (Nat.lt_of_lt_of_le hn h.base_le) with he | he
    · exact h.parent_lt hn (he ▸ hp)
    · simp [he] at hp

namespace Document

theorem Forest.tree_read {α : Type} {d : Document} (hf : d.Forest) (markup : String) (label : NodeId → α) :
    (d.read markup).1.tree label root = d.tree label root := by
  have hchildren : ∀ m, d.Above root m → (d.read markup).1.children (id m) = (d.children m).map id := by
    intro m hm
    rw [List.map_id]
    exact (preserves_read root d markup).children (Nat.zero_le m) (hm.lt_size hf.root_lt_size)
  exact hf.tree_eq_of_children ((grows_read d markup).forest hf) hchildren

theorem exists_put? {kind : PatchKind} {d : Document} {target p : NodeId} (h : d.parent? target = some p)
    (e : NodeId) :
    ∃ d', put? kind d target e = some d' := by
  cases kind with
  | swap =>
    unfold put? replaceNode? place?
    rw [h]
    exact ⟨_, rfl⟩
  | append => exact ⟨_, rfl⟩
  | prepend => exact ⟨_, rfl⟩
  | remove => exact ⟨_, rfl⟩
  | reset => exact ⟨_, rfl⟩

private theorem preserves_put?_read {kind : PatchKind} {d d' : Document} {markup : String} {base target e : NodeId}
    (hf : d.Forest) (hk : kind.creates = true) (ht : target < d.size) (he : e ∈ (d.read markup).2)
    (hput : put? kind (d.read markup).1 target e = some d') (hbase : target < base)
    (hparent : ∀ p, d.parent? target = some p → p < base) : Preserves base (d.read markup).1 d' := by
  have hread := grows_read d markup
  have hf' := hread.forest hf
  obtain ⟨-, -, hnone⟩ := root_read he
  have hspliced := spliced_put? hf' hnone (Nat.lt_of_lt_of_le ht hread.size_le) hk hput
  refine hspliced.preserves hf' (keeps_put? hput).size_le (bare?_put? hput) hbase fun p hp => ?_
  rw [parent?_read ht] at hp
  exact hparent p hp

/-- What was there before from `base` on keeps its children when something that was read is put in before. -/
theorem preserves_put? {kind : PatchKind} {d d' : Document} {markup : String} {base target e : NodeId} (hf : d.Forest)
    (hk : kind.creates = true) (ht : target < d.size) (he : e ∈ (d.read markup).2)
    (hput : put? kind (d.read markup).1 target e = some d') (hbase : target < base)
    (hparent : ∀ p, d.parent? target = some p → p < base) : Preserves base d d' :=
  (preserves_read base d markup).trans (preserves_put?_read hf hk ht he hput hbase hparent)

/-- What was put in is a copy of what is read into an empty document. -/
theorem exists_holds_put? {kind : PatchKind} {d d' : Document} {markup : String} {first target e : NodeId}
    (hf : d.Forest) (hk : kind.creates = true) (ht : target < d.size)
    (hfirst : (Document.empty.read markup).2.head? = some first) (he : (d.read markup).2.head? = some e)
    (hput : put? kind (d.read markup).1 target e = some d') :
    ∃ k, d.size = k + 1 ∧ e = first + k ∧ d'.Holds (Document.empty.read markup).1 k := by
  obtain ⟨k, hsize, hhead, hcopy⟩ := exists_copy_read hf hfirst
  have hpreserves : Preserves d.size (d.read markup).1 d' :=
    preserves_put?_read hf hk ht (List.mem_of_mem_head? he) hput ht fun p hp => hf.parent_lt_size hp
  exact ⟨k, hsize, Option.some.inj (he.symm.trans hhead), hcopy.preserves hpreserves (Nat.le_of_eq hsize)⟩

/-- An attached node but the document node has a parent, which is attached. -/
theorem Above.exists_parent? {d : Document} {n : NodeId} (h : d.Above root n) (hn : n ≠ root) :
    ∃ p, d.parent? n = some p := by
  rcases above_iff.1 h with he | ⟨p, hp, -⟩
  · exact absurd he.symm hn
  · exact ⟨p, hp⟩

theorem exists_put?_read {d : Document} {target : NodeId} (hf : d.Forest) (hattached : d.isAttached target = true)
    (hroot : target ≠ root) (kind : PatchKind) (markup : String) (e : NodeId) :
    ∃ d', put? kind (d.read markup).1 target e = some d' := by
  obtain ⟨p, hp⟩ := (hf.isAttached_iff.1 hattached).exists_parent? hroot
  exact exists_put? ((parent?_read (lt_size_of_parent? hp)).trans hp) e

end Document

namespace MemoryPage

variable {page : MemoryPage} {kind : PatchKind} {fragment : Option String} {html : String} {target e : NodeId}

/-- The error of a request for a capability that is switched off. -/
def refusal (capability : Capability) : PageError :=
  { operation := capability.name, detail := "refused" }

theorem allow_of_refused {α : Type} {capability : Capability} (h : capability ∈ page.refused)
    (result : Except PageError α) : page.allow capability result = .error (refusal capability) :=
  if_pos (List.contains_iff_mem.2 h)

theorem create_of_empty (hallowed : Capability.create ∉ page.refused) (h : Markup.hasElement html = false) :
    page.create html = .ok (none, page) := by
  have hroots := (Document.read_eq_nil_iff page.document html).2 h
  have hsame := Document.read_of_eq_nil hroots
  refine allow_eq_ok_iff.2 ⟨hallowed, ?_⟩
  cases hread : page.document.read html with
  | mk d roots =>
    rw [hread] at hroots hsame
    obtain rfl : roots = [] := hroots
    obtain rfl : d = page.document := hsame
    rfl

theorem create_eq_some (hallowed : Capability.create ∉ page.refused)
    (he : (page.document.read html).2.head? = some e) :
    ∃ handedOut, page.create html =
      .ok (some e, { page with document := (page.document.read html).1, handedOut }) := by
  cases hread : page.document.read html with
  | mk d roots =>
    cases roots with
    | nil => simp [hread] at he
    | cons first rest =>
      have he : first = e := by simpa [hread] using he
      refine ⟨page.handedOut ++ first :: d.descendants first, allow_eq_ok_iff.2 ⟨hallowed, ?_⟩⟩
      rw [hread, ← he]

theorem insertElement_of_put? (page : MemoryPage) (hk : kind.creates = true) {document : Document}
    (hput : Document.put? kind page.document target e = some document) :
    (admits page.refused kind = true → insertElement kind page target e = .ok { page with document }) ∧
      (admits page.refused kind = false → ∃ cause, insertElement kind page target e = .error cause) := by
  cases kind with
  | swap =>
    have hput : page.document.replaceNode? target e = some document := hput
    simp only [admits, Capability.ofKind?, Option.all_some, insertElement, Page.replace, replace, allow, hput]
    cases page.refused.contains Capability.replace <;> simp
  | append =>
    obtain rfl := Option.some.inj hput
    simp only [admits, Capability.ofKind?, Option.all_some, insertElement, Page.append, append, allow]
    cases page.refused.contains Capability.append <;> simp
  | prepend =>
    obtain rfl := Option.some.inj hput
    simp only [admits, Capability.ofKind?, Option.all_some, insertElement, Page.prepend, prepend, allow]
    cases page.refused.contains Capability.prepend <;> simp
  | remove => simp [PatchKind.creates] at hk
  | reset => simp [PatchKind.creates] at hk

theorem exists_html_of_obstacle? {refused : List Capability} (hk : kind.creates = true)
    (h : obstacle? refused kind fragment = none) :
    ∃ html, fragment = some html ∧ Capability.create ∉ refused ∧ Markup.hasElement html = true := by
  unfold obstacle? at h
  rw [if_pos hk] at h
  cases fragment with
  | none => simp at h
  | some html =>
    dsimp only at h
    split at h
    · simp at h
    · rename_i hallowed
      split at h
      · rename_i has
        exact ⟨html, rfl, by simpa using hallowed, has⟩
      · simp at h

end MemoryPage

variable {kind : PatchKind} {fragment : Option String} {scene : Scene MemoryPage} {target base : NodeId}

theorem patchElement_of_detached (h : scene.page.document.isAttached target = false) :
    patchElement kind fragment scene target = (scene, .ok []) := by
  have h : Page.isConnected scene.page target = false := h
  unfold patchElement
  rw [h]
  rfl

theorem patchElement_of_attached (h : scene.page.document.isAttached target = true) :
    patchElement kind fragment scene target =
      if kind.creates then patchWithContent kind fragment scene target
      else (scene.after kind (alterElement kind scene.page target), .ok []) := by
  have h : Page.isConnected scene.page target = true := h
  unfold patchElement
  rw [h]
  rfl

/-- An obstacle is the error that the first attached target runs into. -/
theorem patchElement_of_obstacle? {cause : PatchError} (hattached : scene.page.document.isAttached target = true)
    (h : MemoryPage.obstacle? scene.page.refused kind fragment = some cause) :
    (patchElement kind fragment scene target).2 = .error cause := by
  unfold MemoryPage.obstacle? at h
  cases hcreates : kind.creates with
  | false => simp [hcreates] at h
  | true =>
    rw [patchElement_of_attached hattached, if_pos hcreates]
    rw [if_pos hcreates] at h
    unfold patchWithContent
    cases fragment with
    | none => rw [← Option.some.inj h]
    | some html =>
      dsimp only at h ⊢
      split at h
      · rename_i hrefused
        have hcreate : Page.create scene.page html = .error (MemoryPage.refusal .create) :=
          MemoryPage.allow_of_refused (by simpa using hrefused) _
        rw [hcreate, ← Option.some.inj h]
        rfl
      · rename_i hallowed
        split at h
        · simp at h
        · rename_i hempty
          have hcreate : Page.create scene.page html = .ok (none, scene.page) :=
            MemoryPage.create_of_empty (by simpa using hallowed) (by simpa using hempty)
          rw [hcreate, ← Option.some.inj h]

theorem patch_of_obstacle? {selector : String} {cause : PatchError} {rest : List NodeId}
    (hattached : scene.page.document.isAttached target = true)
    (hquery : Page.query scene.page none selector = .ok (target :: rest))
    (h : MemoryPage.obstacle? scene.page.refused kind fragment = some cause) :
    (patch kind selector fragment scene).2 = .error cause := by
  have hfirst := patchElement_of_obstacle? hattached h
  unfold patch
  rw [hquery]
  dsimp only
  unfold patchElements
  rw [patchTargets]
  cases hone : patchElement kind fragment scene target with
  | mk next result =>
    rw [hone] at hfirst
    obtain rfl : result = .error cause := hfirst
    rfl

/-- How a patch begins: its selector cannot be read, or finds nothing, or finds the targets that it is made on. -/
inductive Sought (kind : PatchKind) (selector : String) (fragment : Option String) (scene : Scene MemoryPage) : Prop
  | unreadable (invalid : Selector.parse? selector = none) {cause : PatchError}
      (failed : patch kind selector fragment scene = (scene, .error cause))
  | unmatched {conditions : Selector} (readable : Selector.parse? selector = some conditions)
      (nothing : scene.page.Lists (fun node => scene.page.document.isMatch conditions node = true) [])
      {cause : PatchError} (failed : patch kind selector fragment scene = (scene, .error cause))
  | found {conditions : Selector} {target : NodeId} {rest : List NodeId}
      (readable : Selector.parse? selector = some conditions)
      (lists : scene.page.Lists (fun node => scene.page.document.isMatch conditions node = true) (target :: rest))
      (query : Page.query scene.page none selector = .ok (target :: rest))
      (made : patch kind selector fragment scene = patchElements kind fragment scene (target :: rest))

/-- A patch is made on what its selector finds, and fails right away if there is nothing. -/
theorem patch_sought (hf : scene.page.document.Forest) (kind : PatchKind) (selector : String)
    (fragment : Option String) : Sought kind selector fragment scene := by
  cases hparse : Selector.parse? selector with
  | none =>
    obtain ⟨cause, hquery⟩ := MemoryPage.exists_error_of_parse? hparse scene.page
    have hpatch : patch kind selector fragment scene = (scene, .error (.page cause)) := by
      unfold patch
      rw [hquery]
    exact .unreadable hparse hpatch
  | some conditions =>
    obtain ⟨targets, hquery, hlists⟩ := scene.page.lists_query hf hparse
    cases targets with
    | nil =>
      have hpatch : patch kind selector fragment scene = (scene, .error (.lookup (.noMatch selector))) := by
        unfold patch
        rw [hquery]
      exact .unmatched hparse hlists hpatch
    | cons target rest =>
      refine .found hparse hlists hquery ?_
      unfold patch
      rw [hquery]

theorem exists_put_of_attached (hf : scene.page.document.Forest) (hcreates : kind.creates = true)
    (hobstacle : MemoryPage.obstacle? scene.page.refused kind fragment = none)
    (hattached : scene.page.document.isAttached target = true) (hroot : target ≠ Document.root) :
    ∃ html e document handedOut, fragment = some html ∧ Markup.hasElement html = true ∧
      (scene.page.document.read html).2.head? = some e ∧
      Document.put? kind (scene.page.document.read html).1 target e = some document ∧
      (MemoryPage.admits scene.page.refused kind = true → patchElement kind fragment scene target =
        ({ scene with page := { scene.page with document, handedOut } }, .ok [e])) ∧
      (MemoryPage.admits scene.page.refused kind = false → ∃ cause, patchElement kind fragment scene target =
        ({ scene with page := { scene.page with document := (scene.page.document.read html).1, handedOut } }.note
          (.failedMutation kind cause), .ok [])) := by
  obtain ⟨html, rfl, hallowed, has⟩ := MemoryPage.exists_html_of_obstacle? hcreates hobstacle
  obtain ⟨e, he⟩ := scene.page.document.exists_head?_read has
  obtain ⟨handedOut, hcreate⟩ := MemoryPage.create_eq_some hallowed he
  have hcreate : Page.create scene.page html = _ := hcreate
  obtain ⟨document, hput⟩ := Document.exists_put?_read hf hattached hroot kind html e
  obtain ⟨hok, herror⟩ := MemoryPage.insertElement_of_put?
    { scene.page with document := (scene.page.document.read html).1, handedOut } hcreates hput
  refine ⟨html, e, document, handedOut, rfl, has, he, hput, fun hadmitted => ?_, fun hrefused => ?_⟩
  · rw [patchElement_of_attached hattached, if_pos hcreates]
    unfold patchWithContent
    simp only [hcreate]
    rw [hok hadmitted]
    rfl
  · obtain ⟨cause, hcause⟩ := herror hrefused
    rw [patchElement_of_attached hattached, if_pos hcreates]
    unfold patchWithContent
    simp only [hcreate]
    rw [hcause]
    exact ⟨cause, rfl⟩

private theorem planted_detach {d : Document} (hg : Ground known base d) (ht : target < known)
    (hroot : target ≠ Document.root) (hkind : planting.kind = .remove) (hadmitted : planting.admitted = true) :
    Planted planting known base [target] d (d.detach target) [] := by
  have hspliced := Document.spliced_detach hg.forest target target
  have hbase := Nat.lt_of_lt_of_le ht hg.known_le
  refine ⟨Document.grows_detach d target, ?_, by simp, by simp, by simp, by simp, List.nodup_nil,
    fun label hlabel _ => ?_⟩
  · exact hspliced.preserves hg.forest (Nat.le_of_eq (Document.size_detach d target).symm)
      (Document.bare?_detach d target) hbase fun p hp => hg.parent_lt hbase hp
  · have hhit : ∀ m, d.Above Document.root m → (planting.hits [target] (label m) = true ↔ m = target) := by
      intro m _
      rw [hlabel.hits_iff (by simpa using ht)]
      simp [hadmitted]
    unfold Planting.graft
    rw [hkind]
    exact hspliced.graft_tree hg.forest (hg.forest.detach target) hhit (Ne.symm hroot) (by simp [PatchKind.creates])

/-- Putting the root of what was read in grafts its tree. -/
private theorem planted_put {d document : Document} {html : String} {e : NodeId} (hg : Ground known base d)
    (ht : target < known) (hroot : target ≠ Document.root) (hk : planting.kind.creates = true)
    (hadmitted : planting.admitted = true) (hsource : planting.source = (Document.empty.read html).1)
    (hsprout : (Document.empty.read html).2.head? = some planting.sprout) (he : (d.read html).2.head? = some e)
    (hput : Document.put? planting.kind (d.read html).1 target e = some document) :
    Planted planting known base [target] d document [e] := by
  have hbase := Nat.lt_of_lt_of_le ht hg.known_le
  have hsize : target < d.size := Nat.lt_of_lt_of_le hbase hg.base_le
  have hread := Document.grows_read d html
  have hf := hread.forest hg.forest
  have hmem := List.mem_of_mem_head? he
  obtain ⟨hde, hes, hnone⟩ := Document.root_read hmem
  have hgrows := Document.grows_put? hk hmem hput fun _ => hsize
  have hspliced := Document.spliced_put? hf hnone (Nat.lt_of_lt_of_le hsize hread.size_le) hk hput
  have hparent : ∀ p, (d.read html).1.parent? target = some p → p < base := by
    intro p hp
    rw [Document.parent?_read hsize] at hp
    exact hg.parent_lt hbase hp
  have hpreserves := Document.preserves_put? hg.forest hk hsize hmem hput hbase fun p hp => hg.parent_lt hbase hp
  obtain ⟨k, hk', hek, hcopy⟩ := Document.exists_holds_put? hg.forest hk hsize hsprout he hput
  rw [← hsource] at hcopy
  have hsprouts := Document.root_read (List.mem_of_mem_head? hsprout)
  refine ⟨hgrows, hpreserves, ?_, ?_, ?_, ?_, List.nodup_singleton e, ?_⟩
  · simpa using ⟨hde, Nat.lt_of_lt_of_le hes (Document.keeps_put? hput).size_le⟩
  · simpa using fun p => hspliced.parent_lt hf (hgrows.forest hg.forest) hnone hbase hparent
  · exact fun _ _ => ⟨hsprouts.1, hsource ▸ hsprouts.2.1⟩
  · simpa using ⟨k, hek, hk' ▸ hg.base_le, hcopy⟩
  · intro label hlabel hfeatures
    have hs : planting.source.Forest := by
      rw [hsource]
      exact Document.forest_read_empty html
    have hscion : document.tree label e = planting.scion := by
      rw [hek, hcopy.tree_eq hs (hgrows.forest hg.forest) hsprouts.1 (hsource ▸ hsprouts.2.1)]
      exact hs.tree_congr fun j hj => hfeatures k (by simp [hek]) j hj
    have hhit : ∀ m, (d.read html).1.Above Document.root m →
        (planting.hits [target] (label m) = true ↔ m = target) := by
      intro m _
      rw [hlabel.hits_iff (by simpa using ht)]
      simp [hadmitted]
    have hgraft := hspliced.graft_tree hf (hgrows.forest hg.forest) hhit (Ne.symm hroot) fun _ => hscion
    rwa [hg.forest.tree_read] at hgraft

/-- Patching one target, where nothing stands in the way, grafts onto it. -/
theorem patchElement_planted (hs : planting.Suits scene.page.refused kind fragment) (hkind : kind ≠ .reset)
    (hobstacle : MemoryPage.obstacle? scene.page.refused kind fragment = none)
    (hg : Ground known base scene.page.document) (ht : target < known) (hroot : target ≠ Document.root) :
    ∃ next inserted, patchElement kind fragment scene target = (next, .ok inserted) ∧
      Planted planting known base [target] scene.page.document next.page.document inserted := by
  have hbelow : ∀ t ∈ [target], t < known := by simpa using ht
  cases hattached : scene.page.document.isAttached target with
  | false =>
    -- an earlier target has taken it along: it is not in the tree, so that nothing is hit
    refine ⟨scene, [], patchElement_of_detached hattached, ?_⟩
    refine Planted.of_not_hit hg.forest (.refl _) (.refl base _) (fun _ => rfl) hbelow fun t hmem habove => ?_
    rw [List.mem_singleton.1 hmem, ← hg.forest.isAttached_iff, hattached] at habove
    exact Bool.noConfusion habove
  | true =>
    cases hcreates : kind.creates with
    | false =>
      rw [patchElement_of_attached hattached, hcreates]
      obtain rfl : kind = .remove := by
        cases kind with
        | remove => rfl
        | reset => exact absurd rfl hkind
        | swap => simp [PatchKind.creates] at hcreates
        | append => simp [PatchKind.creates] at hcreates
        | prepend => simp [PatchKind.creates] at hcreates
      refine ⟨_, [], rfl, ?_⟩
      cases hadmitted : planting.admitted with
      | true =>
        have hallowed : scene.page.refused.contains MemoryPage.Capability.remove = false := by
          simpa [MemoryPage.admits, MemoryPage.Capability.ofKind?] using hs.admitted_eq.symm.trans hadmitted
        simp only [alterElement, Page.remove, MemoryPage.remove, MemoryPage.allow, hallowed]
        exact planted_detach hg ht hroot hs.kind_eq hadmitted
      | false =>
        have hrefused : scene.page.refused.contains MemoryPage.Capability.remove = true := by
          simpa [MemoryPage.admits, MemoryPage.Capability.ofKind?] using hs.admitted_eq.symm.trans hadmitted
        simp only [alterElement, Page.remove, MemoryPage.remove, MemoryPage.allow, hrefused]
        exact Planted.of_not_hit hg.forest (.refl _) (.refl base _) (fun _ => rfl) hbelow fun _ _ _ => hadmitted
    | true =>
      -- the content is made whether or not the page then admits it
      obtain ⟨html, e, document, handedOut, hhtml, has, he, hput, hok, herror⟩ :=
        exists_put_of_attached hg.forest hcreates hobstacle hattached hroot
      obtain ⟨hsource, hsprout⟩ := hs.read hhtml has
      cases hadmitted : planting.admitted with
      | true =>
        refine ⟨_, [e], hok (hs.admitted_eq.symm.trans hadmitted), ?_⟩
        exact planted_put hg ht hroot (hs.kind_eq ▸ hcreates) hadmitted hsource hsprout he (hs.kind_eq.symm ▸ hput)
      | false =>
        obtain ⟨cause, hcause⟩ := herror (hs.admitted_eq.symm.trans hadmitted)
        refine ⟨_, [], hcause, ?_⟩
        refine Planted.of_not_hit hg.forest (Document.grows_read _ html) (Document.preserves_read base _ html)
          (fun label => hg.forest.tree_read html label) hbelow fun _ _ _ => hadmitted

/-- Patching targets, where nothing stands in the way, grafts onto all of them. -/
theorem patchTargets_planted (hs : planting.Suits scene.page.refused kind fragment) (hkind : kind ≠ .reset)
    (hobstacle : MemoryPage.obstacle? scene.page.refused kind fragment = none)
    (hg : Ground known base scene.page.document) (ht : ∀ t ∈ targets, t < known ∧ t ≠ Document.root)
    (hnodup : targets.Nodup) :
    ∃ last inserted, patchTargets kind fragment scene targets = (last, .ok inserted) ∧
      Planted planting known base targets scene.page.document last.page.document inserted := by
  induction targets generalizing scene with
  | nil =>
    refine ⟨scene, [], rfl, ?_⟩
    exact Planted.of_not_hit hg.forest (.refl _) (.refl base _) (fun _ => rfl) (by simp) (by simp)
  | cons target rest ih =>
    rw [List.forall_mem_cons] at ht
    rw [List.nodup_cons] at hnodup
    obtain ⟨next, first, hfirst, hplanted⟩ := patchElement_planted hs hkind hobstacle hg ht.1.1 ht.1.2
    have hrefused : next.page.refused = scene.page.refused := by
      have h := (patchElement_patched kind fragment scene target).edited.refused
      rwa [hfirst] at h
    obtain ⟨last, more, hrest, hmore⟩ := ih (hrefused ▸ hs) (hrefused ▸ hobstacle) (hg.grows hplanted.grows) ht.2
      hnodup.2
    refine ⟨last, first ++ more, ?_, hplanted.trans hmore hnodup.1 hs.number⟩
    rw [patchTargets, hfirst]
    simp only [hrest]

end PageBindings
