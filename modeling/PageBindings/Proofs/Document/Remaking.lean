import PageBindings.Proofs.Document.Order
import PageBindings.Proofs.Document.Splicing

/-!
# Documents in the course of a patch

`Document.Remade` says what a document has become after a patch got to some of its targets, node by node: the children
of every old node in one equation (`PatchKind.childrenAfter`), and the values that were forgotten.  Parents and what
is still attached follow from the children (`Remade.parent?_eq`, `Remade.attached_iff`).  Getting to one more target
keeps this (`Remade.put`, `Remade.detach` and `Remade.reset`).
-/

namespace PageBindings

namespace PatchKind

/-- Whether the kind takes its targets out of the document. -/
def clears : PatchKind → Bool
  | .swap | .remove => true
  | .append | .prepend | .reset => false

/-- The node that the new element for a target comes to be a child of. -/
def host? (kind : PatchKind) (d : Document) (t : NodeId) : Option NodeId :=
  if kind.clears then d.parent? t else some t

/-- Whether a patch gets to a target: if it takes its targets out, it passes over those below others. -/
def reaches (kind : PatchKind) (d : Document) (found : List NodeId) (t : NodeId) : Bool :=
  !kind.clears || d.isTopmost found t

/-- The targets that a patch gets to. -/
def reached (kind : PatchKind) (d : Document) (found : List NodeId) : List NodeId :=
  found.filter (kind.reaches d found)

/-- The children of `n` after a patch got to the targets in `reached`, where `copy` gives the new element for each. -/
def childrenAfter (kind : PatchKind) (reached : List NodeId) (copy : NodeId → NodeId) (n : NodeId)
    (children : List NodeId) : List NodeId :=
  match kind with
  | .swap => children.map fun c => if c ∈ reached then copy c else c
  | .append => if n ∈ reached then children ++ [copy n] else children
  | .prepend => if n ∈ reached then copy n :: children else children
  | .remove => children.filter fun c => c ∉ reached
  | .reset => children

variable {kind : PatchKind} {d : Document} {found reached children : List NodeId} {copy : NodeId → NodeId}
  {e n p t : NodeId}

theorem mem_reached_iff (hf : d.Forest) :
    t ∈ kind.reached d found ↔ t ∈ found ∧ (kind.clears = true → ∀ u ∈ found, ¬ d.ProperlyAbove u t) := by
  unfold reached
  rw [List.mem_filter]
  refine and_congr_right fun _ => ?_
  unfold reaches
  rw [Bool.or_eq_true, Bool.not_eq_true', hf.isTopmost_iff]
  cases kind.clears with
  | true => simp
  | false => simp

/-- Whether a patch gets to a target is up to the targets above it. -/
theorem reaches_append {more : List NodeId} (hf : d.Forest) (h : ∀ u ∈ more, ¬ d.ProperlyAbove u t) :
    kind.reaches d (found ++ more) t = kind.reaches d found t := by
  unfold reaches
  refine congrArg (!kind.clears || ·) (Bool.eq_iff_iff.2 ?_)
  rw [hf.isTopmost_iff, hf.isTopmost_iff]
  constructor
  · intro hall u hu
    exact hall u (List.mem_append_left _ hu)
  · intro hall u hu
    rcases List.mem_append.1 hu with hu | hu
    · exact hall u hu
    · exact h u hu

theorem reaches_concat {u : NodeId} (hf : d.Forest) (h : (found ++ [t]).Pairwise d.Before) (hu : u ∈ found ++ [t]) :
    kind.reaches d (found ++ [t]) u = kind.reaches d found u := by
  refine reaches_append hf fun v hv hvu => ?_
  obtain rfl := List.mem_singleton.1 hv
  rcases List.mem_append.1 hu with hu | hu
  · have hbefore := (List.pairwise_append.1 h).2.2 u hu v (List.mem_singleton_self v)
    exact hf.not_above_of_before hbefore (Document.above_iff_eq_or_properlyAbove.2 (.inr hvu))
  · exact hf.acyclic v (List.mem_singleton.1 hu ▸ hvu)

theorem reached_concat (hf : d.Forest) (h : (found ++ [t]).Pairwise d.Before) :
    kind.reached d (found ++ [t]) = kind.reached d found ++ if kind.reaches d found t then [t] else [] := by
  unfold reached
  rw [List.filter_congr fun u hu => reaches_concat hf h hu, List.filter_append, List.filter_singleton,
    Bool.cond_eq_ite]

theorem childrenAfter_nil (kind : PatchKind) (copy : NodeId → NodeId) (n : NodeId) (children : List NodeId) :
    kind.childrenAfter [] copy n children = children := by
  cases kind <;> simp [childrenAfter]

/-- An old child stays unless it is a target that is taken out. -/
theorem mem_childrenAfter_iff (hn : n ∈ children) (hcopy : kind.creates = true → ∀ t ∈ reached, copy t ≠ n) :
    n ∈ kind.childrenAfter reached copy p children ↔ ¬ (kind.clears = true ∧ n ∈ reached) := by
  cases kind with
  | swap =>
    have hcopy := hcopy rfl
    simp only [childrenAfter, clears, List.mem_map, true_and]
    constructor
    · rintro ⟨c, -, hc⟩ hmem
      by_cases hreached : c ∈ reached
      · rw [if_pos hreached] at hc
        exact hcopy c hreached hc
      · rw [if_neg hreached] at hc
        exact hreached (hc ▸ hmem)
    · intro hmem
      exact ⟨n, hn, if_neg hmem⟩
  | append =>
    simp only [childrenAfter, clears, Bool.false_eq_true, false_and, not_false_eq_true, iff_true]
    split
    · exact List.mem_append_left _ hn
    · exact hn
  | prepend =>
    simp only [childrenAfter, clears, Bool.false_eq_true, false_and, not_false_eq_true, iff_true]
    split
    · exact List.mem_cons_of_mem _ hn
    · exact hn
  | remove => simp [childrenAfter, clears, hn]
  | reset => simpa [childrenAfter, clears] using hn

/-- What one more target changes where a choice depends on the targets. -/
private theorem ite_mem_concat {β : Type} (f : NodeId → β) (b : β) (ht : t ∉ reached) :
    (if n ∈ reached ++ [t] then f (Function.update copy t e n) else b) =
      if n = t then f e else if n ∈ reached then f (copy n) else b := by
  by_cases hnt : n = t
  · subst hnt
    simp
  · simp [hnt]

open Document in
private theorem replaceItem_map {f g : NodeId → NodeId} (h : ∀ c, g c = if f c = t then e else f c) :
    replaceItem t [e] (children.map f) = children.map g := by
  unfold replaceItem
  induction children with
  | nil => rfl
  | cons c rest ih =>
    rw [List.map_cons, List.flatMap_cons, ih, List.map_cons, h c]
    split <;> rfl

open Document in
private theorem replaceItem_filter (children : List NodeId) :
    replaceItem t [] (children.filter fun c => c ∉ reached) = children.filter fun c => c ∉ reached ++ [t] := by
  unfold replaceItem
  induction children with
  | nil => rfl
  | cons c rest ih =>
    by_cases hreached : c ∈ reached
    · simpa [hreached] using ih
    · by_cases hct : c = t
      · simpa [hct, hct ▸ hreached] using ih
      · simpa [hreached, hct] using ih

open Document in
theorem childrenAfter_concat (ht : t ∉ reached) (hcopy : kind.creates = true → ∀ u ∈ reached, copy u ≠ t) :
    kind.childrenAfter (reached ++ [t]) (Function.update copy t e) n children =
      if n = t then kind.within e (replaceItem t (kind.instead t e) (kind.childrenAfter reached copy n children))
      else replaceItem t (kind.instead t e) (kind.childrenAfter reached copy n children) := by
  cases kind with
  | swap =>
    have hcopy := hcopy rfl
    dsimp only [childrenAfter, within, instead]
    rw [ite_self]
    refine (replaceItem_map fun c => ?_).symm
    refine (ite_mem_concat id c ht).trans ?_
    show (if c = t then e else if c ∈ reached then copy c else c) = _
    by_cases hct : c = t
    · subst hct
      simp [ht]
    · rw [if_neg hct]
      by_cases hreached : c ∈ reached
      · simp [hreached, hcopy c hreached]
      · simp [hreached, hct]
  | append =>
    dsimp only [childrenAfter, within, instead]
    rw [replaceItem_self, ite_mem_concat (fun e => children ++ [e]) children ht]
    by_cases hnt : n = t
    · simp [hnt, ht]
    · simp [hnt]
  | prepend =>
    dsimp only [childrenAfter, within, instead]
    rw [replaceItem_self, ite_mem_concat (fun e => e :: children) children ht]
    by_cases hnt : n = t
    · simp [hnt, ht]
    · simp [hnt]
  | remove =>
    dsimp only [childrenAfter, within, instead]
    rw [ite_self, replaceItem_filter]
  | reset =>
    dsimp only [childrenAfter, within, instead]
    rw [replaceItem_self, ite_self]

end PatchKind

namespace Document

/-- Resetting `t` forgets the value of `n`: a form forgets those of all nodes in it, a control its own. -/
def Resets (d : Document) (t n : NodeId) : Prop :=
  (d.tag t = "form" ∧ d.Above t n) ∨ (d.isControl t = true ∧ n = t)

/--
The document after a patch got to the targets in `reached`; `copy` gives the new element for each.  Nothing but the
children of the old nodes and forgotten values sets it apart from the document before.
-/
structure Remade (kind : PatchKind) (reached : List NodeId) (copy : NodeId → NodeId) (d d' : Document) : Prop
    extends d.Grows d' where
  children {n : NodeId} (hn : n < d.size) : d'.children n = kind.childrenAfter reached copy n (d.children n)
  /-- The new elements are new, and each target has its own. -/
  fresh (hk : kind.creates = true) {t : NodeId} (ht : t ∈ reached) : d.size ≤ copy t ∧ copy t < d'.size
  nodup (hk : kind.creates = true) : (reached.map copy).Nodup
  forgotten (hk : kind = .reset) {t n : NodeId} (ht : t ∈ reached) (h : d.Resets t n) : d'.value? n = none
  value? {n : NodeId} (hn : n < d.size) (h : kind = .reset → ∀ t ∈ reached, ¬ d.Resets t n) : d'.value? n = d.value? n

variable {kind : PatchKind} {d d' d'' : Document} {reached nodes : List NodeId} {copy : NodeId → NodeId}
  {a e n p t : NodeId}

/-! ### Forgetting values -/

theorem value?_setValue_none (d : Document) (t n : NodeId) :
    (d.setValue t none).value? n = if n = t then none else d.value? n := by
  unfold value? setValue
  rw [node?_modify]
  by_cases h : n = t
  · rw [if_pos h, if_pos h.symm]
    cases d.node? n <;> rfl
  · rw [if_neg h, if_neg (Ne.symm h)]

theorem value?_forgetValues (d : Document) (nodes : List NodeId) (n : NodeId) :
    (d.forgetValues nodes).value? n = if n ∈ nodes then none else d.value? n := by
  unfold forgetValues
  induction nodes generalizing d with
  | nil => rfl
  | cons m rest ih =>
    rw [List.foldl_cons, ih, value?_setValue_none]
    by_cases hrest : n ∈ rest
    · simp [hrest]
    · by_cases hm : n = m
      · simp [hm]
      · simp [hrest, hm]

theorem children_setValue (d : Document) (t : NodeId) (value : Option String) (n : NodeId) :
    (d.setValue t value).children n = d.children n :=
  children_modify_of_eq fun _ => rfl

theorem children_forgetValues (d : Document) (nodes : List NodeId) (n : NodeId) :
    (d.forgetValues nodes).children n = d.children n := by
  unfold forgetValues
  induction nodes generalizing d with
  | nil => rfl
  | cons m rest ih => rw [List.foldl_cons, ih, children_setValue]

theorem Keeps.isControl (h : d.Keeps d') (hn : n < d.size) : d'.isControl n = d.isControl n := by
  unfold Document.isControl
  rw [h.tag hn]

/-! ### Some targets -/

theorem Remade.refl (kind : PatchKind) (copy : NodeId → NodeId) (d : Document) : Remade kind [] copy d d where
  toGrows := Grows.refl d
  children _ := (kind.childrenAfter_nil copy _ _).symm
  fresh _ _ ht := absurd ht List.not_mem_nil
  nodup _ := List.nodup_nil
  forgotten _ _ _ ht := absurd ht List.not_mem_nil
  value? _ _ := rfl

namespace Remade

/-! ### What follows from the children -/

/-- The old nodes keep their parents but for the targets that are taken out. -/
theorem parent?_eq (h : Remade kind reached copy d d') (hf : d.Forest) (hn : n < d.size) :
    d'.parent? n = if kind.clears = true ∧ n ∈ reached then none else d.parent? n := by
  cases hp : d.parent? n with
  | none =>
    have hnone : d'.parent? n = none := by
      rcases h.parent? hn with heq | heq
      · exact heq.trans hp
      · exact heq
    rw [hnone, ite_self]
  | some p =>
    have hcopy : kind.creates = true → ∀ t ∈ reached, copy t ≠ n := by
      intro hk t ht heq
      exact absurd hn (Nat.not_lt.2 (heq ▸ (h.fresh hk ht).1))
    have hmem : d'.parent? n = some p ↔ ¬ (kind.clears = true ∧ n ∈ reached) := by
      rw [← (h.forest hf).mem_children_iff, h.children (hf.parent_lt_size hp)]
      exact PatchKind.mem_childrenAfter_iff (hf.mem_children_iff.2 hp) hcopy
    split
    · rename_i hcut
      rcases h.parent? hn with heq | heq
      · exact absurd hcut (hmem.1 (heq.trans hp))
      · exact heq
    · rename_i hkept
      exact hmem.2 hkept

/-- What was above an old node is above it still, if no target is taken out from between them. -/
private theorem above_of_kept (h : Remade kind reached copy d d') (hf : d.Forest) (ha : d.Above a n) (hn : n < d.size)
    (hkept : kind.clears = true → ∀ t ∈ reached, ¬ d.Above t n) : d'.Above a n := by
  induction ha using Relation.ReflTransGen.head_induction_on with
  | refl => exact Above.refl d' a
  | @head n p hp _ ih =>
    have hparent : d'.parent? n = some p := by
      rw [h.parent?_eq hf hn, if_neg fun hcut => hkept hcut.1 n hcut.2 (Above.refl d n)]
      exact hp
    refine Above.of_parent? hparent (ih (hf.parent_lt_size hp) fun hk t ht htp => hkept hk t ht ?_)
    exact Above.of_parent? hp htp

/-- A patch that takes nothing out leaves everything above an old node. -/
theorem above_iff (h : Remade kind reached copy d d') (hf : d.Forest) (hk : kind.clears = false) (hn : n < d.size) :
    d'.Above a n ↔ d.Above a n := by
  constructor
  · exact h.above hf hn
  · intro ha
    refine h.above_of_kept hf ha hn fun hclears => ?_
    simp [hk] at hclears

/-- What is taken out are the targets that the patch gets to, with all below them. -/
theorem attached_iff (h : Remade kind reached copy d d') (hf : d.Forest) (hroot : root ∉ reached) (hn : n < d.size) :
    d'.Above root n ↔ d.Above root n ∧ (kind.clears = true → ∀ t ∈ reached, ¬ d.Above t n) := by
  constructor
  · intro ha
    refine ⟨h.above hf hn ha, fun hk t ht htn => ?_⟩
    have hf' := h.forest hf
    have hout : d'.parent? t = none := by
      rw [h.parent?_eq hf (hf.above_lt_size htn hn), if_pos ⟨hk, ht⟩]
    have htop : root = t := by
      rcases above_or_above ha (h.above_of_attached hf ha htn) with hup | hdown
      · exact hup.eq_of_parent?_eq_none hout
      · exact (hdown.eq_of_parent?_eq_none hf'.parent?_root).symm
    exact hroot (htop ▸ ht)
  · rintro ⟨ha, hkept⟩
    exact h.above_of_kept hf ha hn hkept

/-- The next target is attached exactly if the patch is to get to it. -/
theorem attached_iff_reaches {found done rest : List NodeId} (hf : d.Forest) (hordered : found.Pairwise d.Before)
    (hnodup : found.Nodup) (hin : ∀ u ∈ found, u ≠ root ∧ d.Above root u) (hsplit : found = done ++ t :: rest)
    (h : Remade kind (done.filter (kind.reaches d found)) copy d d') :
    d'.Above root t ↔ kind.reaches d found t = true := by
  have ht : t ∈ found := by simp [hsplit]
  have hdone : ∀ u ∈ done, u ∈ found ∧ u ≠ t := by
    intro u hu
    refine ⟨by simp [hsplit, hu], fun heq => ?_⟩
    rw [hsplit, List.nodup_append] at hnodup
    exact hnodup.2.2 u hu t List.mem_cons_self heq
  have hroot : root ∉ done.filter (kind.reaches d found) := by
    intro hmem
    exact (hin root (hdone root (List.mem_filter.1 hmem).1).1).1 rfl
  rw [h.attached_iff hf hroot ((hin t ht).2.lt_size hf.root_lt_size)]
  unfold PatchKind.reaches
  cases hk : kind.clears with
  | false => simpa using (hin t ht).2
  | true =>
    rw [Bool.not_true, Bool.false_or]
    constructor
    · rintro ⟨-, hkept⟩
      rw [hf.isTopmost_iff]
      intro u hu hut
      -- a topmost target above `t` comes before it, so that the patch got to it
      obtain ⟨v, hv, htop, hvt⟩ :=
        hf.exists_isTopmost_above hordered hu (above_iff_eq_or_properlyAbove.2 (.inr hut))
      have hvdone : v ∈ done := by
        rw [hsplit, List.mem_append, List.mem_cons] at hv
        rcases hv with hv | rfl | hv
        · exact hv
        · exact absurd hut (hf.isTopmost_iff.1 htop u hu)
        · rw [hsplit, List.pairwise_append, List.pairwise_cons] at hordered
          exact absurd hvt (hf.not_above_of_before (hordered.2.1.1 v hv))
      refine hkept rfl v (List.mem_filter.2 ⟨hvdone, ?_⟩) hvt
      simp [htop]
    · intro htop
      refine ⟨(hin t ht).2, fun _ u hu hut => ?_⟩
      obtain ⟨hufound, hne⟩ := hdone u (List.mem_filter.1 hu).1
      rcases above_iff_eq_or_properlyAbove.1 hut with heq | hproper
      · exact hne heq
      · exact hf.isTopmost_iff.1 htop u hufound hproper

theorem parent?_copy (h : Remade kind reached copy d d') (hf : d.Forest) (hk : kind.creates = true) (ht : t ∈ reached)
    (hp : kind.host? d t = some p) (hlt : p < d.size) : d'.parent? (copy t) = some p := by
  rw [← (h.forest hf).mem_children_iff, h.children hlt]
  cases kind with
  | swap => exact List.mem_map.2 ⟨t, hf.mem_children_iff.2 hp, if_pos ht⟩
  | append =>
    obtain rfl : t = p := Option.some.inj hp
    simp [PatchKind.childrenAfter, ht]
  | prepend =>
    obtain rfl : t = p := Option.some.inj hp
    simp [PatchKind.childrenAfter, ht]
  | remove => simp [PatchKind.creates] at hk
  | reset => simp [PatchKind.creates] at hk

/-- In the end every new element hangs below an old node that is attached. -/
theorem exists_parent_copy {found : List NodeId} (h : Remade kind (kind.reached d found) copy d d') (hf : d.Forest)
    (hk : kind.creates = true) (hin : ∀ u ∈ found, u ≠ root ∧ d.Above root u) (ht : t ∈ kind.reached d found) :
    ∃ p < d.size, d'.Above root p ∧ d'.parent? (copy t) = some p := by
  have hfound : ∀ u, u ∈ kind.reached d found → u ∈ found := fun u hu => (List.mem_filter.1 hu).1
  have hroot : root ∉ kind.reached d found := fun hmem => (hin root (hfound root hmem)).1 rfl
  obtain ⟨htroot, hta⟩ := hin t (hfound t ht)
  have htsize : t < d.size := hta.lt_size hf.root_lt_size
  cases hclears : kind.clears with
  | true =>
    obtain ⟨p, hp, hpa⟩ : ∃ p, d.parent? t = some p ∧ d.Above root p := by
      rcases Document.above_iff.1 hta with heq | hup
      · exact absurd heq.symm htroot
      · exact hup
    have hpsize := hf.parent_lt_size hp
    refine ⟨p, hpsize, (h.attached_iff hf hroot hpsize).2 ⟨hpa, fun _ u hu hup => ?_⟩, ?_⟩
    · -- a target above the parent is properly above `t`
      have htop := ((PatchKind.mem_reached_iff hf).1 ht).2 hclears
      exact htop u (hfound u hu) (properlyAbove_iff.2 ⟨p, hp, hup⟩)
    · exact h.parent?_copy hf hk ht ((if_pos hclears).trans hp) hpsize
  | false =>
    refine ⟨t, htsize, (h.above_iff hf hclears htsize).2 hta, ?_⟩
    exact h.parent?_copy hf hk ht (if_neg (by simp [hclears])) htsize

/-! ### One more target -/

private theorem mem_concat {u : NodeId} : u ∈ reached ++ [t] ↔ u ∈ reached ∨ u = t := by
  rw [List.mem_append, List.mem_singleton]

theorem put (h : Remade kind reached copy d d') (hf : d.Forest) (hk : kind.creates = true) (ht : t < d.size)
    (hnot : t ∉ reached) {markup : String} (he : e ∈ (d'.read markup).2)
    (hput : put? kind (d'.read markup).1 t e = some d'') :
    Remade kind (reached ++ [t]) (Function.update copy t e) d d'' := by
  have hf' := h.forest hf
  have hread := grows_read d' markup
  obtain ⟨hnew, hlt, hnone⟩ := root_read he
  have hkeeps := keeps_put? hput
  have ht' : t < d'.size := Nat.lt_of_lt_of_le ht h.size_le
  have hkind : kind ≠ .reset := by
    rintro rfl
    simp [PatchKind.creates] at hk
  have hspliced := spliced_put? (hread.forest hf') hnone (Nat.lt_of_lt_of_le ht' hread.size_le) hk hput
  have hcopy : ∀ u ∈ reached, Function.update copy t e u = copy u :=
    fun u hu => Function.update_of_ne (ne_of_mem_of_not_mem hu hnot) e copy
  refine ⟨h.toGrows.trans (grows_put? hk he hput fun _ => ht'), ?_, ?_, ?_, ?_, ?_⟩
  · intro n hn
    have hold := (preserves_read 0 d' markup).children (Nat.zero_le n) (Nat.lt_of_lt_of_le hn h.size_le)
    rw [hspliced.children, hold, h.children hn]
    refine (PatchKind.childrenAfter_concat hnot fun _ u hu heq => ?_).symm
    exact absurd ht (Nat.not_lt.2 (heq ▸ (h.fresh hk hu).1))
  · intro _ u hu
    have hsize : d'.size ≤ d''.size := Nat.le_trans hread.size_le hkeeps.size_le
    rcases mem_concat.1 hu with hu | rfl
    · obtain ⟨hle, hold⟩ := h.fresh hk hu
      rw [hcopy u hu]
      exact ⟨hle, Nat.lt_of_lt_of_le hold hsize⟩
    · rw [Function.update_self]
      exact ⟨Nat.le_trans h.size_le hnew, Nat.lt_of_lt_of_le hlt hkeeps.size_le⟩
  · intro _
    rw [List.map_append, List.map_congr_left hcopy, List.map_singleton, Function.update_self, ← List.concat_eq_append]
    refine List.Nodup.concat (fun hmem => ?_) (h.nodup hk)
    obtain ⟨u, hu, heq⟩ := List.mem_map.1 hmem
    exact absurd (h.fresh hk hu).2 (Nat.not_lt.2 (heq ▸ hnew))
  · intro hreset
    exact absurd hreset hkind
  · intro n hn _
    have hbare := (bare?_put? hput n).trans ((preserves_read 0 d' markup).bare? (Nat.lt_of_lt_of_le hn h.size_le))
    rw [value?_congr hbare]
    exact h.value? hn fun hreset => absurd hreset hkind

theorem read (h : Remade kind reached copy d d') (hk : kind.creates = true) (markup : String) :
    Remade kind reached copy d (d'.read markup).1 where
  toGrows := h.toGrows.trans (grows_read d' markup)
  children {n} hn := by
    rw [(preserves_read 0 d' markup).children (Nat.zero_le n) (Nat.lt_of_lt_of_le hn h.size_le), h.children hn]
  fresh _ _ ht := by
    obtain ⟨hle, hold⟩ := h.fresh hk ht
    exact ⟨hle, Nat.lt_of_lt_of_le hold (grows_read d' markup).size_le⟩
  nodup := h.nodup
  forgotten hreset := by simp [hreset, PatchKind.creates] at hk
  value? {n} hn hkept := by
    rw [value?_congr ((preserves_read 0 d' markup).bare? (Nat.lt_of_lt_of_le hn h.size_le))]
    exact h.value? hn hkept

theorem detach (h : Remade .remove reached copy d d') (hf : d.Forest) (hnot : t ∉ reached) :
    Remade .remove (reached ++ [t]) copy d (d'.detach t) where
  toGrows := h.toGrows.trans (grows_detach d' t)
  children {n} hn := by
    have hconcat : PatchKind.childrenAfter .remove (reached ++ [t]) (Function.update copy t t) n (d.children n) = _ :=
      PatchKind.childrenAfter_concat hnot fun hk => by simp [PatchKind.creates] at hk
    rw [(spliced_detach (h.forest hf) t t).children, h.children hn]
    exact hconcat.symm
  fresh hk := by simp [PatchKind.creates] at hk
  nodup hk := by simp [PatchKind.creates] at hk
  forgotten hk := by simp at hk
  value? hn _ := by
    rw [value?_congr (bare?_detach d' t _)]
    exact h.value? hn fun hk => by simp at hk

/-- Nothing but the values that one more target resets is forgotten. -/
private theorem reset (h : Remade .reset reached copy d d') (hgrows : d'.Grows d'')
    (hchildren : ∀ n, d''.children n = d'.children n) (hforgotten : ∀ n, d.Resets t n → d''.value? n = none)
    (hkept : ∀ n < d.size, ¬ d.Resets t n → d''.value? n = d'.value? n)
    (hstay : ∀ n, d'.value? n = none → d''.value? n = none) :
    Remade .reset (reached ++ [t]) copy d d'' where
  toGrows := h.toGrows.trans hgrows
  children hn := by
    rw [hchildren, h.children hn]
    rfl
  fresh hk := by simp [PatchKind.creates] at hk
  nodup hk := by simp [PatchKind.creates] at hk
  forgotten _ u n hu hn := by
    rcases mem_concat.1 hu with hu | rfl
    · exact hstay n (h.forgotten rfl hu hn)
    · exact hforgotten n hn
  value? {n} hn hnone := by
    rw [hkept n hn (hnone rfl t (mem_concat.2 (.inr rfl)))]
    exact h.value? hn fun _ u hu => hnone rfl u (mem_concat.2 (.inl hu))

theorem resetForm (h : Remade .reset reached copy d d') (hf : d.Forest) (ht : t < d.size)
    (hform : d'.tag t = "form") :
    Remade .reset (reached ++ [t]) copy d (d'.resetForm t) := by
  have hf' := h.forest hf
  have hvalue : ∀ n, (d'.resetForm t).value? n = if n ∈ t :: d'.descendants t then none else d'.value? n :=
    fun n => value?_forgetValues d' _ n
  have hform' : d.tag t = "form" := (h.tag ht).symm.trans hform
  have hcontrol : d.isControl t = false := by
    unfold isControl
    rw [hform']
    decide
  refine h.reset (grows_forgetValues d' _) (children_forgetValues d' _) (fun n hn => ?_) (fun n hn hnot => ?_)
    fun n hnone => ?_
  · have hbelow : d.Above t n := by
      rcases hn with ⟨-, hbelow⟩ | ⟨htrue, -⟩
      · exact hbelow
      · simp [hcontrol] at htrue
    have hin : n ∈ t :: d'.descendants t :=
      hf'.mem_cons_descendants_iff.2 ((h.above_iff hf rfl (hbelow.lt_size ht)).2 hbelow)
    rw [hvalue, if_pos hin]
  · have hout : n ∉ t :: d'.descendants t := by
      intro hin
      have hbelow := (h.above_iff hf rfl hn).1 (hf'.mem_cons_descendants_iff.1 hin)
      exact hnot (.inl ⟨hform', hbelow⟩)
    rw [hvalue, if_neg hout]
  · rw [hvalue, hnone, ite_self]

theorem resetControl (h : Remade .reset reached copy d d') (ht : t < d.size) (hform : d'.tag t ≠ "form")
    (hcontrol : d'.isControl t = true) : Remade .reset (reached ++ [t]) copy d (d'.setValue t none) := by
  have hform' : d.tag t ≠ "form" := by
    rw [← h.tag ht]
    exact hform
  have hcontrol' : d.isControl t = true := (h.isControl ht).symm.trans hcontrol
  refine h.reset (grows_setValue d' t none) (children_setValue d' t none) (fun n hn => ?_) (fun n _ hnot => ?_)
    fun n hnone => ?_
  · rcases hn with ⟨htrue, -⟩ | ⟨-, hnt⟩
    · exact absurd htrue hform'
    · rw [value?_setValue_none, if_pos hnt]
  · rw [value?_setValue_none, if_neg fun hnt => hnot (.inr ⟨hcontrol', hnt⟩)]
  · rw [value?_setValue_none, hnone, ite_self]

theorem resetNothing (h : Remade .reset reached copy d d') (ht : t < d.size) (hform : d'.tag t ≠ "form")
    (hcontrol : d'.isControl t = false) : Remade .reset (reached ++ [t]) copy d d' := by
  refine h.reset (Grows.refl d') (fun _ => rfl) (fun n hn => ?_) (fun _ _ _ => rfl) fun _ hnone => hnone
  rcases hn with ⟨htrue, -⟩ | ⟨htrue, -⟩
  · rw [← h.tag ht] at htrue
    exact absurd htrue hform
  · rw [← h.isControl ht, hcontrol] at htrue
    simp at htrue

end Remade

end Document

end PageBindings
