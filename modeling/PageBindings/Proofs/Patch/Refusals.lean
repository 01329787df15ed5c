import PageBindings.Proofs.Client.Failure
import PageBindings.Proofs.Patch.Remaking

/-!
# Patches of pages that refuse single targets

`RefusingPage` is a page that refuses what it likes of what a patch asks for: to make a new element, or to have one of
the targets changed.  A patch comes to each target once, and each element that it makes changes the page, so that this
says for every single request of a patch whether it is refused.

A target that resists does not hold up the others: they are patched as if it had not been found (`Progress.step`).
But a patch gives up at the first target for which no element is made, and forgets to report those that it has put in
by then (`withheld_element_ends_patch`).  `patch_isolates_refusals` says how far a patch gets, and what it makes of
the document.
-/

namespace PageBindings

/-- A page on top of another one, which it does not always let a patch have its way with. -/
structure RefusingPage (π : Type) where
  /-- The page below, on which is done what is not refused. -/
  base : π
  /-- Whether it makes no element, as things are. -/
  withholds : π → Bool := fun _ => false
  /-- Whether it lets no patch of the kind be made at the target. -/
  resists : PatchKind → NodeId → Bool := fun _ _ => false

namespace RefusingPage

variable {π : Type} {kind : PatchKind} {t : NodeId}

/-- What comes of a request for a target: it is refused, or made of the page below. -/
def request (page : RefusingPage π) (kind : PatchKind) (target : NodeId) (result : Except PageError π) :
    Except PageError (RefusingPage π) :=
  if page.resists kind target then .error { operation := kind.name, detail := "refused" }
  else result.map fun base => { page with base }

theorem request_of_obliging (page : RefusingPage π) (h : page.resists kind t = false) (result : Except PageError π) :
    page.request kind t result = result.map fun base => { page with base } :=
  if_neg (by simp [h])

instance [Page π] : Page (RefusingPage π) where
  label page := Page.label page.base
  query page := Page.query page.base
  contains page := Page.contains page.base
  isConnected page := Page.isConnected page.base
  attribute? page := Page.attribute? page.base
  value? page := Page.value? page.base
  create page html :=
    if page.withholds page.base then .error (MemoryPage.refusal .create)
    else (Page.create page.base html).map fun (element, base) => (element, { page with base })
  replace page target replacement := page.request .swap target (Page.replace page.base target replacement)
  append page parent child := page.request .append parent (Page.append page.base parent child)
  prepend page parent child := page.request .prepend parent (Page.prepend page.base parent child)
  remove page node := page.request .remove node (Page.remove page.base node)
  reset page node := page.request .reset node (Page.reset page.base node)
  claim page node eventType :=
    let (fresh, base, notices) := Page.claim page.base node eventType
    (fresh, { page with base }, notices)
  release page node eventType :=
    let (base, notices) := Page.release page.base node eventType
    ({ page with base }, notices)
  listen page listener := (Page.listen page.base listener).map fun base => { page with base }
  listeners page := Page.listeners page.base
  currentTarget? page := Page.currentTarget? page.base
  send page request errand := (Page.send page.base request errand).map fun base => { page with base }
  subscribe page url owner :=
    (Page.subscribe page.base url owner).map fun (stream, base) => (stream, { page with base })
  unsubscribe page stream := { page with base := Page.unsubscribe page.base stream }
  freshClientId page :=
    let (id, base) := Page.freshClientId page.base
    (id, { page with base })

end RefusingPage

/-! ### One target -/

section

variable {π : Type} [Page π] {kind : PatchKind} {fragment : Option String} {scene : Scene (RefusingPage π)}
  {t e : NodeId} {html : String}

/-- The page below. -/
def Scene.base (scene : Scene (RefusingPage π)) : Scene π :=
  ⟨scene.page.base, scene.notices⟩

/-- The scene with this page on top. -/
def Scene.below (scene : Scene π) (page : RefusingPage π) : Scene (RefusingPage π) :=
  ⟨{ page with base := scene.page }, scene.notices⟩

theorem insertElement_of_obliging (page : RefusingPage π) (h : page.resists kind t = false) :
    insertElement kind page t e = (insertElement kind page.base t e).map fun base => { page with base } := by
  cases kind with
  | swap => exact page.request_of_obliging h _
  | append => exact page.request_of_obliging h _
  | prepend => exact page.request_of_obliging h _
  | remove => rfl
  | reset => rfl

theorem alterElement_of_obliging (page : RefusingPage π) (h : page.resists kind t = false) :
    alterElement kind page t = (alterElement kind page.base t).map fun base => { page with base } := by
  cases kind with
  | remove => exact page.request_of_obliging h _
  | reset => exact page.request_of_obliging h _
  | swap => rfl
  | append => rfl
  | prepend => rfl

theorem insertElement_of_resisting (page : RefusingPage π) (hk : kind.creates = true)
    (h : page.resists kind t = true) : ∃ cause, insertElement kind page t e = .error cause := by
  cases kind with
  | swap => exact ⟨_, if_pos h⟩
  | append => exact ⟨_, if_pos h⟩
  | prepend => exact ⟨_, if_pos h⟩
  | remove => simp [PatchKind.creates] at hk
  | reset => simp [PatchKind.creates] at hk

theorem alterElement_of_resisting (page : RefusingPage π) (hk : kind.creates = false)
    (h : page.resists kind t = true) : ∃ cause, alterElement kind page t = .error cause := by
  cases kind with
  | remove => exact ⟨_, if_pos h⟩
  | reset => exact ⟨_, if_pos h⟩
  | swap => simp [PatchKind.creates] at hk
  | append => simp [PatchKind.creates] at hk
  | prepend => simp [PatchKind.creates] at hk

theorem create_of_generous (h : scene.page.withholds scene.page.base = false) (html : String) :
    Page.create scene.page html =
      (Page.create scene.page.base html).map fun (element, base) => (element, { scene.page with base }) :=
  if_neg (by simp [h])

/-- An obliging target is patched as on the page below. -/
theorem patchElement_of_obliging (hmakes : kind.creates = true → scene.page.withholds scene.page.base = false)
    (hobliges : scene.page.resists kind t = false) :
    patchElement kind fragment scene t =
      ((patchElement kind fragment scene.base t).1.below scene.page,
        (patchElement kind fragment scene.base t).2) := by
  have hconnected : Page.isConnected scene.page t = Page.isConnected scene.base.page t := rfl
  unfold patchElement
  rw [hconnected]
  cases Page.isConnected scene.base.page t with
  | false => rfl
  | true =>
    cases hk : kind.creates with
    | false =>
      show (scene.after kind (alterElement kind scene.page t), _) =
        ((scene.base.after kind (alterElement kind scene.page.base t)).below scene.page, _)
      rw [alterElement_of_obliging scene.page hobliges]
      cases alterElement kind scene.page.base t <;> rfl
    | true =>
      cases fragment with
      | none => rfl
      | some html =>
        have hcreate := create_of_generous (hmakes hk) html
        have hbase : Page.create scene.base.page html = Page.create scene.page.base html := rfl
        dsimp only [patchWithContent]
        rw [hcreate, hbase]
        cases Page.create scene.page.base html with
        | error cause => rfl
        | ok made =>
          obtain ⟨element, base⟩ := made
          cases element with
          | none => rfl
          | some e =>
            dsimp only [Except.map]
            rw [insertElement_of_obliging { scene.page with base } hobliges]
            cases insertElement kind base t e <;> rfl

/-- A target that resists being altered leaves no trace on the page. -/
theorem patchElement_of_resisting (hconnected : Page.isConnected scene.page t = true) (hk : kind.creates = false)
    (hresists : scene.page.resists kind t = true) :
    ∃ next, patchElement kind fragment scene t = (next, .ok []) ∧ next.page = scene.page := by
  obtain ⟨cause, hcause⟩ := alterElement_of_resisting scene.page hk hresists
  unfold patchElement
  rw [hconnected, hk, hcause]
  exact ⟨_, rfl, rfl⟩

/-- If it resists being given an element, this has been made all the same. -/
theorem patchElement_of_resisting_element (hconnected : Page.isConnected scene.page t = true)
    (hk : kind.creates = true) (hresists : scene.page.resists kind t = true)
    (hmakes : scene.page.withholds scene.page.base = false) {base : π}
    (hcreate : Page.create scene.page.base html = .ok (some e, base)) :
    ∃ next, patchElement kind (some html) scene t = (next, .ok []) ∧ next.page = { scene.page with base } := by
  obtain ⟨cause, hcause⟩ := insertElement_of_resisting { scene.page with base } hk hresists (e := e)
  unfold patchElement patchWithContent
  rw [hconnected, hk]
  dsimp only
  rw [create_of_generous hmakes, hcreate]
  dsimp only [Except.map]
  rw [hcause]
  exact ⟨_, rfl, rfl⟩

theorem patchElement_of_withheld (hconnected : Page.isConnected scene.page t = true) (hk : kind.creates = true)
    (hwithheld : scene.page.withholds scene.page.base = true) :
    patchElement kind (some html) scene t = (scene, .error (.page (MemoryPage.refusal .create))) := by
  have hcreate : Page.create scene.page html = .error (MemoryPage.refusal .create) := if_pos hwithheld
  unfold patchElement patchWithContent
  rw [hconnected, hk]
  dsimp only
  rw [hcreate]
  rfl

end

/-! ### The course of a patch -/

variable {kind : PatchKind} {fragment : Option String} {page : RefusingPage MemoryPage}
  {scene last : Scene (RefusingPage MemoryPage)} {targets targets' done got before after : List NodeId}
  {copy : NodeId → NodeId} {t : NodeId}

namespace RefusingPage

/-- The targets that do not resist. -/
def obliging (page : RefusingPage MemoryPage) (kind : PatchKind) (targets : List NodeId) : List NodeId :=
  targets.filter fun t => !page.resists kind t

/-- Of the targets, those that a patch changes: it gets to them, and they do not resist. -/
def served (page : RefusingPage MemoryPage) (kind : PatchKind) (targets : List NodeId) : List NodeId :=
  kind.reached page.base.document (page.obliging kind targets)

/-- The elements that a patch puts in for its targets. -/
def inserted (page : RefusingPage MemoryPage) (kind : PatchKind) (copy : NodeId → NodeId) (targets : List NodeId) :
    List NodeId :=
  if kind.creates then (page.served kind targets).map copy else []

/-- The targets of a patch: elements of the document, in document order and each once. -/
structure Targets (page : RefusingPage MemoryPage) (targets : List NodeId) : Prop where
  ordered : targets.Pairwise page.base.document.Before
  nodup : targets.Nodup
  inside : ∀ t ∈ targets, t ≠ Document.root ∧ page.base.document.Above Document.root t

theorem Targets.sublist (h : page.Targets targets) (hsub : targets'.Sublist targets) : page.Targets targets' where
  ordered := h.ordered.sublist hsub
  nodup := h.nodup.sublist hsub
  inside t ht := h.inside t (hsub.mem ht)

theorem obliging_append (page : RefusingPage MemoryPage) (kind : PatchKind) (targets targets' : List NodeId) :
    page.obliging kind (targets ++ targets') = page.obliging kind targets ++ page.obliging kind targets' :=
  List.filter_append _ _

theorem obliging_sublist (page : RefusingPage MemoryPage) (kind : PatchKind) (targets : List NodeId) :
    (page.obliging kind targets).Sublist targets :=
  List.filter_sublist

theorem served_sublist (page : RefusingPage MemoryPage) (kind : PatchKind) (targets : List NodeId) :
    (page.served kind targets).Sublist targets :=
  List.filter_sublist.trans (page.obliging_sublist kind targets)

theorem served_concat (hf : page.base.document.Forest) (h : page.Targets (done ++ [t])) :
    page.served kind (done ++ [t]) = page.served kind done ++
      if !page.resists kind t && kind.reaches page.base.document (page.obliging kind done) t then [t] else [] := by
  unfold served
  rw [obliging_append]
  cases hresists : page.resists kind t with
  | true =>
    have hnone : page.obliging kind [t] = [] := by simp [obliging, hresists]
    rw [hnone, List.append_nil]
    simp
  | false =>
    have hone : page.obliging kind [t] = [t] := by simp [obliging, hresists]
    have hordered := (h.sublist (page.obliging_sublist kind _)).ordered
    rw [obliging_append] at hordered
    rw [hone] at hordered ⊢
    rw [PatchKind.reached_concat hf hordered]
    simp

/-- What comes later in document order does not matter to whether a target is served. -/
theorem mem_served_iff (hf : page.base.document.Forest) (h : page.Targets (before ++ t :: after)) :
    t ∈ page.served kind (before ++ t :: after) ↔
      kind.reaches page.base.document (page.obliging kind before) t = true ∧ page.resists kind t = false := by
  have hlater : ∀ u ∈ page.obliging kind (t :: after), ¬ page.base.document.ProperlyAbove u t := by
    intro u hu hut
    rcases List.mem_cons.1 ((page.obliging_sublist kind _).mem hu) with rfl | hu
    · exact hf.acyclic u hut
    · have hordered := (List.pairwise_append.1 h.ordered).2.1
      exact hf.not_above_of_before ((List.pairwise_cons.1 hordered).1 u hu)
        (Document.above_iff_eq_or_properlyAbove.2 (.inr hut))
  unfold served PatchKind.reached
  rw [List.mem_filter, obliging_append, PatchKind.reaches_append hf hlater]
  simp [obliging, and_comm]

end RefusingPage

/-- What `page` has become in the course of a patch, after the targets in `done`. -/
structure Progress (kind : PatchKind) (fragment : Option String) (page : RefusingPage MemoryPage) (done : List NodeId)
    (copy : NodeId → NodeId) (scene : Scene (RefusingPage MemoryPage)) : Prop where
  page_eq : scene.page = { page with base := scene.page.base }
  edited : page.base.Edited scene.page.base
  course : Course kind fragment page.base.document (page.served kind done) copy scene.page.base

namespace Progress

/-- The patch has got past one more target. -/
structure Step (kind : PatchKind) (fragment : Option String) (page : RefusingPage MemoryPage) (done : List NodeId)
    (copy : NodeId → NodeId) (scene : Scene (RefusingPage MemoryPage)) (t : NodeId)
    (next : Scene (RefusingPage MemoryPage)) (first : List NodeId) (copy' : NodeId → NodeId) : Prop where
  made : patchElement kind fragment scene t = (next, .ok first)
  progress : Progress kind fragment page (done ++ [t]) copy' next
  inserted : page.inserted kind copy' (done ++ [t]) = page.inserted kind copy done ++ first

/-- The next target is part of the document exactly if no target above it has been taken out. -/
theorem connected_eq (h : Progress kind fragment page done copy scene) (hf : page.base.document.Forest)
    (htargets : page.Targets (done ++ [t])) : Page.isConnected scene.page t =
      kind.reaches page.base.document (page.obliging kind done) t := by
  have htargets' := htargets.sublist ((page.obliging_sublist kind done).append_right [t])
  have hremade := h.course.remade
  unfold RefusingPage.served PatchKind.reached at hremade
  rw [← List.filter_congr fun u hu => PatchKind.reaches_concat hf htargets'.ordered (List.mem_append_left [t] hu)]
    at hremade
  rw [← PatchKind.reaches_concat hf htargets'.ordered (List.mem_append_right _ (List.mem_singleton_self t)),
    Bool.eq_iff_iff, ← hremade.attached_iff_reaches hf htargets'.ordered htargets'.nodup htargets'.inside rfl]
  exact (h.course.remade.forest hf).isAttached_iff

private theorem skip {next : Scene (RefusingPage MemoryPage)} {base : MemoryPage}
    (h : Progress kind fragment page done copy scene) (hsame : page.served kind (done ++ [t]) = page.served kind done)
    (hmade : patchElement kind fragment scene t = (next, .ok [])) (hpage : next.page = { scene.page with base })
    (hedited : scene.page.base.Edited base)
    (hcourse : Course kind fragment page.base.document (page.served kind done) copy base) :
    Step kind fragment page done copy scene t next [] copy := by
  have hpage : next.page = { page with base } := by rw [hpage, h.page_eq]
  refine ⟨hmade, ⟨?_, ?_, ?_⟩, ?_⟩
  · rw [hpage]
  · rw [hpage]
    exact h.edited.trans hedited
  · rw [hpage, hsame]
    exact hcourse
  · unfold RefusingPage.inserted
    rw [hsame, List.append_nil]

private theorem resist (h : Progress kind fragment page done copy scene)
    (hobstacle : MemoryPage.obstacle? [] kind fragment = none) (hconnected : Page.isConnected scene.page t = true)
    (hmakes : kind.creates = true → scene.page.withholds scene.page.base = false)
    (hresists : scene.page.resists kind t = true)
    (hsame : page.served kind (done ++ [t]) = page.served kind done) :
    ∃ next, Step kind fragment page done copy scene t next [] copy := by
  cases hk : kind.creates with
  | false =>
    obtain ⟨next, hmade, hpage⟩ := patchElement_of_resisting hconnected hk hresists
    exact ⟨next, h.skip hsame hmade hpage (.refl _) h.course⟩
  | true =>
    obtain ⟨html, rfl, -, has⟩ := MemoryPage.exists_html_of_obstacle? hk hobstacle
    obtain ⟨e, he⟩ := scene.page.base.document.exists_head?_read has
    have hallowed : MemoryPage.Capability.create ∉ scene.page.base.refused := by
      rw [h.course.refused]
      exact List.not_mem_nil
    obtain ⟨handedOut, hcreate⟩ := MemoryPage.create_eq_some hallowed he
    obtain ⟨next, hmade, hpage⟩ := patchElement_of_resisting_element hconnected hk hresists (hmakes hk) hcreate
    have hedited : scene.page.base.Edited _ := ⟨_, handedOut, Document.grows_read _ html, rfl⟩
    exact ⟨next, h.skip hsame hmade hpage hedited (h.course.read hk html handedOut)⟩

private theorem serve (h : Progress kind fragment page done copy scene) (hf : page.base.document.Forest)
    (hobstacle : MemoryPage.obstacle? [] kind fragment = none) (htargets : page.Targets (done ++ [t]))
    (hconnected : Page.isConnected scene.page t = true)
    (hmakes : kind.creates = true → scene.page.withholds scene.page.base = false)
    (hobliges : scene.page.resists kind t = false)
    (hmore : page.served kind (done ++ [t]) = page.served kind done ++ [t]) :
    ∃ next first copy', Step kind fragment page done copy scene t next first copy' := by
  have hone : patchElement kind fragment scene t = _ := patchElement_of_obliging hmakes hobliges
  have hbelow : Course kind fragment page.base.document (page.served kind done) copy scene.base.page := h.course
  have hedited := (patchElement_patched kind fragment scene.base t).edited
  obtain ⟨hroot, hinside⟩ := htargets.inside t (List.mem_append_right _ (List.mem_singleton_self t))
  have hattached := (h.course.remade.forest hf).isAttached_iff.1 hconnected
  have hlt := hinside.lt_size hf.root_lt_size
  have hnot : t ∉ page.served kind done := by
    intro hmem
    have hdone := (page.served_sublist kind done).mem hmem
    exact (List.nodup_append.1 htargets.nodup).2.2 t hdone t (List.mem_singleton_self t) rfl
  -- what was done on the page below has been done on this one
  have hstep : ∀ {base : Scene MemoryPage} {copy' : NodeId → NodeId} {first : List NodeId},
      patchElement kind fragment scene.base t = (base, .ok first) →
      Course kind fragment page.base.document (page.served kind done ++ [t]) copy' base.page →
      page.inserted kind copy' (done ++ [t]) = page.inserted kind copy done ++ first →
      Step kind fragment page done copy scene t (base.below scene.page) first copy' := by
    intro base copy' first heq hcourse hinserted
    rw [heq] at hone hedited
    refine ⟨hone, ⟨?_, h.edited.trans hedited, hmore ▸ hcourse⟩, hinserted⟩
    show { scene.page with base := base.page } = { page with base := base.page }
    rw [h.page_eq]
  unfold RefusingPage.inserted at hstep
  rw [hmore] at hstep
  cases hk : kind.creates with
  | true =>
    obtain ⟨base, e, heq, hcourse⟩ := hbelow.put hf hk hobstacle hlt hroot hattached hnot
    have hcopy : ∀ u ∈ page.served kind done, Function.update copy t e u = copy u :=
      fun u hu => Function.update_of_ne (ne_of_mem_of_not_mem hu hnot) e copy
    refine ⟨_, _, _, hstep heq hcourse ?_⟩
    rw [if_pos hk, if_pos hk, List.map_append, List.map_congr_left hcopy, List.map_singleton, Function.update_self]
  | false =>
    obtain ⟨base, heq, hcourse⟩ := hbelow.alter hf hk hlt hattached hnot
    refine ⟨_, _, _, hstep heq hcourse ?_⟩
    rw [hk]
    rfl

/--
The next target is passed over, or resists, or is patched; only if it is connected and no element is made for it does
the patch fail.
-/
theorem step (h : Progress kind fragment page done copy scene) (hf : page.base.document.Forest)
    (hobstacle : MemoryPage.obstacle? [] kind fragment = none) (htargets : page.Targets (done ++ [t])) :
    (kind.creates = true ∧ Page.isConnected scene.page t = true ∧ page.withholds scene.page.base = true ∧
      patchElement kind fragment scene t = (scene, .error (.page (MemoryPage.refusal .create)))) ∨
    ∃ next first copy', Step kind fragment page done copy scene t next first copy' := by
  have hserved : page.served kind (done ++ [t]) = _ := page.served_concat hf htargets
  rw [← h.connected_eq hf htargets] at hserved
  have hwithholds : scene.page.withholds = page.withholds := by rw [h.page_eq]
  have hresists_eq : scene.page.resists = page.resists := by rw [h.page_eq]
  cases hconnected : Page.isConnected scene.page t with
  | false =>
    have hsame : page.served kind (done ++ [t]) = page.served kind done := by simpa [hconnected] using hserved
    have hmade : patchElement kind fragment scene t = (scene, .ok []) := by
      unfold patchElement
      rw [hconnected]
      rfl
    exact .inr ⟨scene, [], copy, h.skip hsame hmade rfl (.refl _) h.course⟩
  | true =>
    by_cases hwithheld : kind.creates = true ∧ page.withholds scene.page.base = true
    · obtain ⟨hk, hwithheld⟩ := hwithheld
      obtain ⟨html, rfl, -, -⟩ := MemoryPage.exists_html_of_obstacle? hk hobstacle
      exact .inl ⟨hk, rfl, hwithheld, patchElement_of_withheld hconnected hk (hwithholds ▸ hwithheld)⟩
    · have hmakes : kind.creates = true → scene.page.withholds scene.page.base = false := by
        intro hk
        rw [hwithholds, Bool.eq_false_iff]
        exact fun hwithheld' => hwithheld ⟨hk, hwithheld'⟩
      cases hresists : page.resists kind t with
      | true =>
        have hsame : page.served kind (done ++ [t]) = page.served kind done := by simpa [hresists] using hserved
        obtain ⟨next, hnext⟩ := h.resist hobstacle hconnected hmakes (hresists_eq ▸ hresists) hsame
        exact .inr ⟨next, [], copy, hnext⟩
      | false =>
        have hmore : page.served kind (done ++ [t]) = page.served kind done ++ [t] := by
          simpa [hresists, hconnected] using hserved
        exact .inr (h.serve hf hobstacle htargets hconnected hmakes (hresists_eq ▸ hresists) hmore)

end Progress

theorem progress_of_ok {inserted : List NodeId} (hf : scene.page.base.document.Forest)
    (hallowed : scene.page.base.refused = []) (hobstacle : MemoryPage.obstacle? [] kind fragment = none)
    (htargets : scene.page.Targets got) (h : patchTargets kind fragment scene got = (last, .ok inserted)) :
    ∃ copy, Progress kind fragment scene.page got copy last ∧ inserted = scene.page.inserted kind copy got := by
  induction got using List.reverseRecOn generalizing last inserted with
  | nil =>
    simp only [patchTargets, Prod.mk.injEq, Except.ok.injEq] at h
    obtain ⟨rfl, rfl⟩ := h
    have hcourse : Course kind fragment scene.page.base.document [] id scene.page.base :=
      ⟨Document.Remade.refl kind id _, fun _ _ ht => absurd ht List.not_mem_nil, hallowed⟩
    exact ⟨id, ⟨rfl, .refl _, hcourse⟩, (ite_self _).symm⟩
  | append_singleton got t ih =>
    obtain ⟨mid, first, more, hgot, hone, rfl⟩ := patchTargets_append_eq_ok h
    obtain ⟨next, second, rest, hlast, hrest, rfl⟩ := patchTargets_cons_eq_ok hone
    simp only [patchTargets, Prod.mk.injEq, Except.ok.injEq] at hrest
    obtain ⟨rfl, rfl⟩ := hrest
    obtain ⟨copy, hprogress, rfl⟩ := ih (htargets.sublist (List.sublist_append_left got [t])) hgot
    rcases hprogress.step hf hobstacle htargets with ⟨-, -, -, hfailed⟩ | ⟨next', first, copy', hstep⟩
    · simp [hfailed] at hlast
    · simp only [hstep.made, Prod.mk.injEq, Except.ok.injEq] at hlast
      obtain ⟨rfl, rfl⟩ := hlast
      exact ⟨copy', hstep.progress, by rw [hstep.inserted, List.append_nil]⟩

/--
How a patch fared with the targets in `got`: it patched those in `served`, each as if it were alone, and `copy` gives
the new element for each.
-/
structure Fared (kind : PatchKind) (fragment : Option String) (scene last : Scene (RefusingPage MemoryPage))
    (got served : List NodeId) (copy : NodeId → NodeId) : Prop where
  /-- It patched those that were part of the document at their turn and did not resist. -/
  served_iff {before after : List NodeId} {t : NodeId} (h : got = before ++ t :: after) : t ∈ served ↔
    Page.isConnected (patchTargets kind fragment scene before).1.page t = true ∧ scene.page.resists kind t = false
  sublist : served.Sublist got
  remade : scene.page.base.document.Remade kind served copy last.page.base.document
  parent? {n : NodeId} (hn : n < scene.page.base.document.size) : last.page.base.document.parent? n =
    if kind.clears = true ∧ n ∈ served then none else scene.page.base.document.parent? n
  isConnected_iff {n : NodeId} (hn : n < scene.page.base.document.size) : Page.isConnected last.page n = true ↔
    Page.isConnected scene.page n = true ∧
      (kind.clears = true → ∀ t ∈ served, ¬ scene.page.base.document.Above t n)
  sprouted (hk : kind.creates = true) : ∃ html, fragment = some html ∧
    ∀ t ∈ served, scene.page.base.document.Sprouted last.page.base.document html (copy t)
  page_eq : last.page = { scene.page with base := last.page.base }
  edited : scene.page.base.Edited last.page.base

theorem Progress.fared (h : Progress kind fragment scene.page got copy last) (hf : scene.page.base.document.Forest)
    (hallowed : scene.page.base.refused = []) (hobstacle : MemoryPage.obstacle? [] kind fragment = none)
    (htargets : scene.page.Targets got) {inserted : List NodeId}
    (hgot : patchTargets kind fragment scene got = (last, .ok inserted)) :
    Fared kind fragment scene last got (scene.page.served kind got) copy := by
  have hsub := scene.page.served_sublist kind got
  have hremade := h.course.remade
  have hin := (htargets.sublist (scene.page.obliging_sublist kind got)).inside
  refine ⟨fun {before after t} hsplit => ?_, hsub, hremade, hremade.parent?_eq hf, fun {n} hn => ?_, fun hk => ?_,
    h.page_eq, h.edited⟩
  · subst hsplit
    obtain ⟨mid, first, more, hbefore, -, -⟩ := patchTargets_append_eq_ok hgot
    have htargets' : scene.page.Targets (before ++ [t]) := htargets.sublist (by simp)
    obtain ⟨copy', hmid, -⟩ :=
      progress_of_ok hf hallowed hobstacle (htargets'.sublist (List.sublist_append_left before [t])) hbefore
    rw [hbefore, hmid.connected_eq hf htargets']
    exact scene.page.mem_served_iff hf htargets
  · have hroot : Document.root ∉ scene.page.served kind got :=
      fun hmem => (htargets.inside Document.root (hsub.mem hmem)).1 rfl
    show last.page.base.document.isAttached n = true ↔ scene.page.base.document.isAttached n = true ∧ _
    rw [(hremade.forest hf).isAttached_iff, hf.isAttached_iff]
    exact hremade.attached_iff hf hroot hn
  · obtain ⟨html, rfl, -, -⟩ := MemoryPage.exists_html_of_obstacle? hk hobstacle
    exact ⟨html, rfl, fun t ht => h.course.sprouted hf hk hin ht⟩

private theorem patchElement_of_lacking (hconnected : Page.isConnected scene.page t = true) (hk : kind.creates = true)
    (hallowed : scene.page.base.refused = [])
    (hempty : ∀ html, fragment = some html → Markup.hasElement html = false) :
    ∃ cause, patchElement kind fragment scene t = (scene, .error cause) := by
  unfold patchElement patchWithContent
  rw [hconnected, hk]
  cases fragment with
  | none => exact ⟨_, rfl⟩
  | some html =>
    cases hwithheld : scene.page.withholds scene.page.base with
    | true =>
      have hcreate : Page.create scene.page html = .error (MemoryPage.refusal .create) := if_pos hwithheld
      dsimp only
      rw [hcreate]
      exact ⟨_, rfl⟩
    | false =>
      have hnone : Page.create scene.page.base html = .ok (none, scene.page.base) :=
        MemoryPage.create_of_empty (by simp [hallowed]) (hempty html rfl)
      dsimp only
      rw [create_of_generous hwithheld, hnone]
      exact ⟨_, rfl⟩

/-- A patch that lacks a target or content fails, and leaves the page as it was. -/
private theorem patch_of_unpatchable {selector : String} (hf : scene.page.base.document.Forest)
    (hallowed : scene.page.base.refused = []) (h : scene.page.base.Unpatchable kind selector fragment) :
    ∃ cause, patch kind selector fragment scene = (scene, .error cause) := by
  unfold patch
  cases hquery : Page.query scene.page none selector with
  | error cause => exact ⟨_, rfl⟩
  | ok targets =>
    cases targets with
    | nil => exact ⟨_, rfl⟩
    | cons t rest =>
      obtain ⟨hk, hempty⟩ := h.lacking_of_query hf hquery
      have hattached := attached_of_mem_query hf hquery List.mem_cons_self
      obtain ⟨cause, hcause⟩ := patchElement_of_lacking (hf.isAttached_iff.2 hattached) hk hallowed hempty
      refine ⟨cause, ?_⟩
      dsimp only
      unfold patchElements
      rw [patchTargets, hcause]
      rfl

/-- How a patch ends, with the targets in `rest` left: it is through, or gives up at the first one of them. -/
inductive Ended (kind : PatchKind) (rest inserted : List NodeId) (last : Scene (RefusingPage MemoryPage)) :
    Except PatchError PatchOutcome → Prop
  | through (none_left : rest = []) : Ended kind rest inserted last (.ok { kind, inserted })
  | withheld {t : NodeId} {after : List NodeId} (left : rest = t :: after) (creates : kind.creates = true)
      (connected : Page.isConnected last.page t = true) (withholds : last.page.withholds last.page.base = true) :
      Ended kind rest inserted last (.error (.page (MemoryPage.refusal .create)))

/-- A patch that lacks nothing: it gets to the targets in `got`, and no further than that. -/
structure Passage (kind : PatchKind) (selector : String) (fragment : Option String)
    (scene last : Scene (RefusingPage MemoryPage)) (got rest served : List NodeId) (copy : NodeId → NodeId) : Prop
    extends Fared kind fragment scene last got served copy where
  found : ∃ conditions, Selector.parse? selector = some conditions ∧
    scene.page.base.Lists (fun node => scene.page.base.document.isMatch conditions node = true) (got ++ rest)
  ended : ∃ result, patch kind selector fragment scene = (last, result) ∧
    Ended kind rest (if kind.creates then served.map copy else []) last result

private theorem exists_passage {selector : String} (hf : scene.page.base.document.Forest)
    (hallowed : scene.page.base.refused = []) (h : ¬ scene.page.base.Unpatchable kind selector fragment) :
    ∃ last got rest served copy, Passage kind selector fragment scene last got rest served copy := by
  obtain ⟨conditions, target, others, hparse, hlists, hquery, hobstacle⟩ :=
    MemoryPage.exists_query_of_patchable hf hallowed h
  have htargets : scene.page.Targets (target :: others) := by
    refine ⟨hlists.ordered, hlists.nodup, fun t ht => ⟨((hlists.mem_iff t).1 ht).1, ?_⟩⟩
    exact hf.isAttached_iff.1 (hlists.isAttached ht)
  have hpatch : patch kind selector fragment scene = patchElements kind fragment scene (target :: others) := by
    have hquery : Page.query scene.page none selector = .ok (target :: others) := hquery
    unfold patch
    rw [hquery]
  obtain ⟨got, rest, last, inserted, hsplit, hgot, hrest⟩ :=
    exists_patchTargets_eq_ok kind fragment scene (target :: others)
  rw [hsplit] at htargets hlists hpatch hrest
  have hdone := htargets.sublist (List.sublist_append_left got rest)
  obtain ⟨copy, hprogress, hinserted⟩ := progress_of_ok hf hallowed hobstacle hdone hgot
  refine ⟨last, got, rest, _, copy, hprogress.fared hf hallowed hobstacle hdone hgot,
    ⟨conditions, hparse, hlists⟩, ?_⟩
  rcases hrest with rfl | ⟨t, after, last', cause, rfl, hfailed, hall⟩
  · refine ⟨_, ?_, .through rfl⟩
    rw [hpatch, List.append_nil]
    unfold patchElements
    rw [hgot, hinserted]
    rfl
  · have htargets' : scene.page.Targets (got ++ [t]) := htargets.sublist (by simp)
    rcases hprogress.step hf hobstacle htargets' with ⟨hk, hconnected, hwithheld, hstop⟩ | ⟨next, first, copy', hstep⟩
    · obtain ⟨rfl, rfl⟩ : last = last' ∧ _ = cause := by simpa [hstop] using hfailed
      refine ⟨_, ?_, .withheld rfl hk hconnected ?_⟩
      · rw [hpatch]
        unfold patchElements
        rw [hall]
        rfl
      · rw [hprogress.page_eq]
        exact hwithheld
    · simp [hstep.made] at hfailed

/--
Whatever is refused, a patch that lacks nothing gets to its targets one after the other, and patches those that are
connected at their turn and do not resist, each as if it were alone.  If it gets to the end it reports the elements
that it has put in, in the order of their targets.  But at the first connected target for which no element is made it
gives up: it fails, and reports none of them.  On a page that makes elements it fails only for want of targets or
content, and this leaves the page as it was.
-/
theorem patch_isolates_refusals (scene : Scene (RefusingPage MemoryPage)) (kind : PatchKind) (selector : String)
    (fragment : Option String) (hf : scene.page.base.document.Forest) (hallowed : scene.page.base.refused = []) :
    (¬ scene.page.base.Unpatchable kind selector fragment →
      ∃ last got rest served copy, Passage kind selector fragment scene last got rest served copy) ∧
    (scene.page.base.Unpatchable kind selector fragment →
      ∃ cause, patch kind selector fragment scene = (scene, .error cause)) ∧
    ((∀ base, scene.page.withholds base = false) →
      ((∃ cause, (patch kind selector fragment scene).2 = .error cause) ↔
        scene.page.base.Unpatchable kind selector fragment)) := by
  refine ⟨exists_passage hf hallowed, patch_of_unpatchable hf hallowed, fun hmakes => ⟨?_, ?_⟩⟩
  · rintro ⟨cause, herror⟩
    by_contra hpatchable
    obtain ⟨last, got, rest, served, copy, hpassage⟩ := exists_passage hf hallowed hpatchable
    obtain ⟨result, hpatch, hended⟩ := hpassage.ended
    cases hended with
    | through => simp [hpatch] at herror
    | withheld _ _ _ hwithholds =>
      rw [hpassage.page_eq, hmakes] at hwithholds
      simp at hwithholds
  · intro h
    obtain ⟨cause, hcause⟩ := patch_of_unpatchable hf hallowed h
    exact ⟨cause, congrArg Prod.snd hcause⟩

/-- A list in which an item matches, too, and that is not to be replaced itself. -/
def stubbornList : Scene (RefusingPage MemoryPage) :=
  { page := { base := nestedMatches.page, resists := fun kind t => kind == .swap && t == 2 } }

/-- The list stays, and so its item is still there at its turn. -/
theorem patch_isolates_refusals_stubbornList :
    ¬ stubbornList.page.base.Unpatchable .swap ".a" (some "<i class='a'></i>") ∧
      ∃ last got served copy,
        Passage .swap ".a" (some "<i class='a'></i>") stubbornList last got [] served copy ∧
        served.map copy = [6, 7] ∧ last.page.base.document.children 1 = [2, 7] ∧
        last.page.base.document.children 2 = [6] := by
  have hforest : stubbornList.page.base.document.Forest := MemoryPage.forest_withBody _
  obtain ⟨hok, houter, hinner⟩ :
      (patch .swap ".a" (some "<i class='a'></i>") stubbornList).2 = .ok { kind := .swap, inserted := [6, 7] } ∧
        (patch .swap ".a" (some "<i class='a'></i>") stubbornList).1.page.base.document.children 1 = [2, 7] ∧
        (patch .swap ".a" (some "<i class='a'></i>") stubbornList).1.page.base.document.children 2 = [6] := by
    decide +kernel
  obtain ⟨hpassage, -, hfails⟩ :=
    patch_isolates_refusals stubbornList .swap ".a" (some "<i class='a'></i>") hforest rfl
  have hpatchable : ¬ stubbornList.page.base.Unpatchable .swap ".a" (some "<i class='a'></i>") := by
    intro h
    obtain ⟨cause, herror⟩ := (hfails fun _ => rfl).2 h
    simp [hok] at herror
  obtain ⟨last, got, rest, served, copy, h⟩ := hpassage hpatchable
  obtain ⟨result, hpatch, hended⟩ := h.ended
  rw [hpatch] at hok houter hinner
  cases hended with
  | through hrest =>
    subst hrest
    have hserved : served.map copy = [6, 7] := congrArg PatchOutcome.inserted (Except.ok.inj hok)
    exact ⟨hpatchable, last, got, served, copy, h, hserved, houter, hinner⟩
  | withheld => simp at hok

/-- Two paragraphs on a page that makes one more element, and then none. -/
def scarcePage : Scene (RefusingPage MemoryPage) :=
  { page := { base := .withBody "<p></p><p></p>", withholds := fun base => base.document.size != 4 } }

/--
Nothing is wanting, but the patch fails at the second paragraph, and does not report what it put into the first.
-/
theorem withheld_element_ends_patch :
    scarcePage.page.base.document.Forest ∧ scarcePage.page.base.refused = [] ∧
      ¬ scarcePage.page.base.Unpatchable .append "p" (some "<q></q>") ∧
      (patch .append "p" (some "<q></q>") scarcePage).2 = .error (.page (MemoryPage.refusal .create)) ∧
      (patch .append "p" (some "<q></q>") scarcePage).1.page.base.document.children 2 = [4] := by
  refine ⟨MemoryPage.forest_withBody _, rfl, ?_, by decide +kernel, by decide +kernel⟩
  intro h
  cases h with
  | unreadable invalid => exact absurd invalid (by decide +kernel)
  | unmatched missed =>
    have hfirst : scarcePage.page.base.document.isMatch [.tag "p"] 2 = true := by decide +kernel
    exact missed 2 (by decide) (by decide +kernel) ⟨_, by decide +kernel, hfirst⟩
  | lacking _ empty => exact absurd (empty "<q></q>" rfl) (by decide +kernel)

end PageBindings
