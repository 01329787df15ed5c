import PageBindings.Proofs.Document.Remaking
import PageBindings.Proofs.Page.Views
import PageBindings.Proofs.Patch.Planting

/-!
# What becomes of a document in a patch

A patch looks up its targets once, and then works on a document that it changes all the time.  What it makes of the
document is known beforehand nevertheless (`patch_remakes`): it gets to the targets that it found, without those that
it has taken out with another one by then, and puts in a copy of one and the same element for each
(`Document.Sprouted`).  `Course` is what holds in between: the document so far, node by node, and the copies so far.
-/

namespace PageBindings

namespace Document

/-- A new part of the document, with `e` on top, that is like the first element of the markup. -/
structure Sprouted (d d' : Document) (markup : String) (e : NodeId) : Prop where
  parent? : ∃ p < d.size, d'.isAttached p = true ∧ d'.parent? e = some p
  attached : d'.isAttached e = true
  new {n : NodeId} (h : d'.Above e n) : d.size ≤ n
  tree : ∃ first, (Document.empty.read markup).2.head? = some first ∧
    d'.tree d'.bare? e = (Document.empty.read markup).1.tree (Document.empty.read markup).1.bare? first

theorem Holds.sprouted {d d' : Document} {markup : String} {first k p : NodeId}
    (h : d'.Holds (Document.empty.read markup).1 k) (hf' : d'.Forest) (hk : d.size ≤ k + 1)
    (hfirst : (Document.empty.read markup).2.head? = some first) (hp : p < d.size) (hpa : d'.Above root p)
    (hparent : d'.parent? (first + k) = some p) : d.Sprouted d' markup (first + k) := by
  have hs := forest_read_empty markup
  obtain ⟨hpos, hlt, -⟩ := root_read (List.mem_of_mem_head? hfirst)
  refine ⟨⟨p, hp, hf'.isAttached_iff.2 hpa, hparent⟩, ?_, fun hn => ?_, first, hfirst, ?_⟩
  · rw [hf'.isAttached_iff]
    exact Above.of_parent? hparent hpa
  · obtain ⟨j, hj, rfl⟩ := (h.above_iff hs hf' hpos hlt).1 hn
    exact le_add_of_pos hk (hs.pos_of_above hpos hj)
  · rw [h.tree_eq hs hf' hpos hlt]
    exact hs.tree_congr fun j hj => h.bare? (hs.pos_of_above hpos hj) (hj.lt_size hlt)

end Document

variable {kind : PatchKind} {fragment : Option String} {scene : Scene MemoryPage} {d : Document}
  {done found rest : List NodeId} {copy : NodeId → NodeId} {t : NodeId}

/-- A page in the course of a patch of the document `d`, after the targets in `done`. -/
structure Course (kind : PatchKind) (fragment : Option String) (d : Document) (done : List NodeId)
    (copy : NodeId → NodeId) (page : MemoryPage) : Prop where
  remade : d.Remade kind done copy page.document
  copied (hk : kind.creates = true) {t : NodeId} (ht : t ∈ done) : ∃ html first k, fragment = some html ∧
    (Document.empty.read html).2.head? = some first ∧ copy t = first + k ∧ d.size ≤ k + 1 ∧
      page.document.Holds (Document.empty.read html).1 k
  refused : page.refused = []

theorem Course.read {page : MemoryPage} (h : Course kind fragment d done copy page) (hk : kind.creates = true)
    (html : String) (handedOut : List NodeId) :
    Course kind fragment d done copy { page with document := (page.document.read html).1, handedOut } where
  remade := h.remade.read hk html
  copied _ t ht := by
    obtain ⟨html', first, k, hhtml', hfirst, heq, hbase, hcopy⟩ := h.copied hk ht
    exact ⟨html', first, k, hhtml', hfirst, heq, hbase,
      hcopy.preserves (Document.preserves_read d.size page.document html) hbase⟩
  refused := h.refused

theorem Course.put (h : Course kind fragment d done copy scene.page) (hf : d.Forest)
    (hk : kind.creates = true) (hobstacle : MemoryPage.obstacle? [] kind fragment = none) (ht : t < d.size)
    (hroot : t ≠ Document.root) (hattached : scene.page.document.Above Document.root t) (hnot : t ∉ done) :
    ∃ next e, patchElement kind fragment scene t = (next, .ok [e]) ∧
      Course kind fragment d (done ++ [t]) (Function.update copy t e) next.page := by
  have hf' := h.remade.forest hf
  have hobstacle' : MemoryPage.obstacle? scene.page.refused kind fragment = none := by
    rw [h.refused]
    exact hobstacle
  have hadmitted : MemoryPage.admits scene.page.refused kind = true := by
    rw [h.refused]
    cases kind <;> rfl
  obtain ⟨html, e, document, handedOut, hhtml, has, he, hput, hok, -⟩ :=
    exists_put_of_attached hf' hk hobstacle' (hf'.isAttached_iff.2 hattached) hroot
  have ht' : t < scene.page.document.size := Nat.lt_of_lt_of_le ht h.remade.size_le
  have hmem := List.mem_of_mem_head? he
  refine ⟨_, e, hok hadmitted, h.remade.put hf hk ht hnot hmem hput, fun _ u hu => ?_, h.refused⟩
  rcases List.mem_append.1 hu with hu | hu
  · -- the copies for other targets hang further up, and are left alone
    obtain ⟨html', first, k, hhtml', hfirst, heq, hbase, hcopy⟩ := h.copied hk hu
    have hparent : ∀ p, scene.page.document.parent? t = some p → p < d.size := by
      intro p hp
      rcases h.remade.parent? ht with hold | hold
      · exact hf.parent_lt_size (hold ▸ hp)
      · simp [hold] at hp
    have hpreserves := Document.preserves_put? hf' hk ht' hmem hput ht hparent
    refine ⟨html', first, k, hhtml', hfirst, ?_, hbase, hcopy.preserves hpreserves hbase⟩
    rw [Function.update_of_ne (ne_of_mem_of_not_mem hu hnot)]
    exact heq
  · obtain ⟨first, hfirst⟩ := Document.empty.exists_head?_read has
    obtain ⟨k, hsize, hek, hcopy⟩ := Document.exists_holds_put? hf' hk ht' hfirst he hput
    refine ⟨html, first, k, hhtml, hfirst, ?_, hsize ▸ h.remade.size_le, hcopy⟩
    rw [List.mem_singleton.1 hu, Function.update_self]
    exact hek

theorem Course.alter (h : Course kind fragment d done copy scene.page) (hf : d.Forest)
    (hk : kind.creates = false) (ht : t < d.size) (hattached : scene.page.document.Above Document.root t)
    (hnot : t ∉ done) :
    ∃ next, patchElement kind fragment scene t = (next, .ok []) ∧
      Course kind fragment d (done ++ [t]) copy next.page := by
  have hattached' : scene.page.document.isAttached t = true := (h.remade.forest hf).isAttached_iff.2 hattached
  have hnone : ∀ next : MemoryPage, d.Remade kind (done ++ [t]) copy next.document → next.refused = [] →
      Course kind fragment d (done ++ [t]) copy next :=
    fun next hremade hrefused => ⟨hremade, fun hcreates => by simp [hk] at hcreates, hrefused⟩
  rw [patchElement_of_attached hattached', hk]
  refine ⟨_, rfl, ?_⟩
  cases kind with
  | remove =>
    have halter : alterElement .remove scene.page t =
        .ok { scene.page with document := scene.page.document.detach t } := by
      refine MemoryPage.allow_eq_ok_iff.2 ⟨?_, rfl⟩
      rw [h.refused]
      exact List.not_mem_nil
    rw [halter]
    exact hnone _ (h.remade.detach hf hnot) h.refused
  | reset =>
    by_cases hform : scene.page.document.tag t = "form"
    · have halter : alterElement .reset scene.page t =
          .ok { scene.page with document := scene.page.document.resetForm t } := if_pos hform
      rw [halter]
      exact hnone _ (h.remade.resetForm hf ht hform) h.refused
    · cases hcontrol : scene.page.document.isControl t with
      | true =>
        have halter : alterElement .reset scene.page t =
            .ok { scene.page with document := scene.page.document.setValue t none } :=
          (if_neg hform).trans (if_pos hcontrol)
        rw [halter]
        exact hnone _ (h.remade.resetControl ht hform hcontrol) h.refused
      | false =>
        -- the page says that the target cannot be reset, which is reported
        obtain ⟨cause, halter⟩ : ∃ cause, alterElement .reset scene.page t = .error cause :=
          ⟨_, (if_neg hform).trans (if_neg (by simp [hcontrol]))⟩
        rw [halter]
        exact hnone _ (h.remade.resetNothing ht hform hcontrol) h.refused
  | swap => simp [PatchKind.creates] at hk
  | append => simp [PatchKind.creates] at hk
  | prepend => simp [PatchKind.creates] at hk

theorem Course.sprouted {page : MemoryPage} {html : String}
    (h : Course kind (some html) d (kind.reached d found) copy page) (hf : d.Forest) (hk : kind.creates = true)
    (hin : ∀ t ∈ found, t ≠ Document.root ∧ d.Above Document.root t) (ht : t ∈ kind.reached d found) :
    d.Sprouted page.document html (copy t) := by
  obtain ⟨html', first, k, hhtml, hfirst, heq, hbase, hcopy⟩ := h.copied hk ht
  obtain rfl : html = html' := Option.some.inj hhtml
  obtain ⟨p, hp, hpa, hparent⟩ := h.remade.exists_parent_copy hf hk hin ht
  rw [heq] at hparent ⊢
  exact hcopy.sprouted (h.remade.forest hf) hbase hfirst hp hpa hparent

/-- Patching the remaining targets gets to those of them that are not taken out with others. -/
theorem patchTargets_course (hf : d.Forest) (hobstacle : MemoryPage.obstacle? [] kind fragment = none)
    (hordered : found.Pairwise d.Before) (hnodup : found.Nodup)
    (hin : ∀ t ∈ found, t ≠ Document.root ∧ d.Above Document.root t) (hsplit : found = done ++ rest)
    (h : Course kind fragment d (done.filter (kind.reaches d found)) copy scene.page) :
    ∃ last copy', patchTargets kind fragment scene rest =
        (last, .ok (if kind.creates then (rest.filter (kind.reaches d found)).map copy' else [])) ∧
      Course kind fragment d (kind.reached d found) copy' last.page ∧ ∀ t ∈ done, copy' t = copy t := by
  induction rest generalizing done scene copy with
  | nil =>
    have hdone : done = found := by simpa using hsplit.symm
    subst hdone
    refine ⟨scene, copy, ?_, h, fun _ _ => rfl⟩
    simp [patchTargets]
  | cons t rest ih =>
    have hsplit' : found = (done ++ [t]) ++ rest := by simp [hsplit]
    have ht : t ∈ found := by simp [hsplit]
    have hnot : t ∉ done := by
      rw [hsplit, List.nodup_append] at hnodup
      exact fun hmem => hnodup.2.2 t hmem t List.mem_cons_self rfl
    have hsize : t < d.size := (hin t ht).2.lt_size hf.root_lt_size
    have hreaches := h.remade.attached_iff_reaches hf hordered hnodup hin hsplit
    cases hr : kind.reaches d found t with
    | false =>
      -- the target has been taken out with another one
      have hdetached : scene.page.document.isAttached t = false := by
        rw [Bool.eq_false_iff, ne_eq, (h.remade.forest hf).isAttached_iff, hreaches, hr]
        decide
      have hfilter : (done ++ [t]).filter (kind.reaches d found) = done.filter (kind.reaches d found) := by
        simp [hr]
      obtain ⟨last, copy', hrest, hcourse, hcopy⟩ := ih hsplit' (hfilter ▸ h)
      refine ⟨last, copy', ?_, hcourse, fun u hu => hcopy u (List.mem_append_left _ hu)⟩
      rw [patchTargets, patchElement_of_detached hdetached]
      simp only [hrest, List.filter_cons, hr]
      rfl
    | true =>
      have hattached := hreaches.2 hr
      have hnot' : t ∉ done.filter (kind.reaches d found) := fun hmem => hnot (List.mem_filter.1 hmem).1
      have hfilter : (done ++ [t]).filter (kind.reaches d found) = done.filter (kind.reaches d found) ++ [t] := by
        simp [hr]
      cases hk : kind.creates with
      | true =>
        obtain ⟨next, e, hone, hnext⟩ := h.put hf hk hobstacle hsize (hin t ht).1 hattached hnot'
        obtain ⟨last, copy', hrest, hcourse, hcopy⟩ := ih hsplit' (hfilter ▸ hnext)
        have hcopyt : copy' t = e := by
          rw [hcopy t (List.mem_append_right _ (List.mem_singleton_self t)), Function.update_self]
        refine ⟨last, copy', ?_, hcourse, fun u hu => ?_⟩
        · rw [patchTargets, hone]
          simp only [hrest, hk, List.filter_cons, hr, if_true, List.map_cons, hcopyt]
          rfl
        · rw [hcopy u (List.mem_append_left _ hu), Function.update_of_ne (ne_of_mem_of_not_mem hu hnot)]
      | false =>
        obtain ⟨next, hone, hnext⟩ := h.alter hf hk hsize hattached hnot'
        obtain ⟨last, copy', hrest, hcourse, hcopy⟩ := ih hsplit' (hfilter ▸ hnext)
        refine ⟨last, copy', ?_, hcourse, fun u hu => hcopy u (List.mem_append_left _ hu)⟩
        rw [patchTargets, hone]
        simp only [hrest, hk]
        rfl

/-- What a patch that succeeds was made on: targets that a search finds, with nothing in the way. -/
theorem exists_targets_of_ok {selector : String} {last : Scene MemoryPage} {outcome : PatchOutcome}
    (hf : scene.page.document.Forest) (h : patch kind selector fragment scene = (last, .ok outcome)) :
    ∃ conditions targets, Selector.parse? selector = some conditions ∧
      scene.page.Lists (fun node => scene.page.document.isMatch conditions node = true) targets ∧
      MemoryPage.obstacle? scene.page.refused kind fragment = none ∧
      patchElements kind fragment scene targets = (last, .ok outcome) := by
  cases patch_sought hf kind selector fragment with
  | unreadable _ failed => simp [failed] at h
  | unmatched _ _ failed => simp [failed] at h
  | found readable lists query made =>
    refine ⟨_, _, readable, lists, ?_, made ▸ h⟩
    cases hobstacle : MemoryPage.obstacle? scene.page.refused kind fragment with
    | none => rfl
    | some cause =>
      have herror := patch_of_obstacle? (lists.isAttached List.mem_cons_self) query hobstacle
      rw [h] at herror
      simp at herror

/--
A patch that succeeds on a page that refuses nothing gets to the elements that match its selector, in document order,
without those below another one if it takes its targets out.  It makes of the document what the kind says for these
targets: the children of all old nodes are `PatchKind.childrenAfter`, the values of reset controls and forms are
forgotten, and all else is as it was.  The elements that it reports are the new ones, in the order of their targets;
each is attached, new with all below it, and like the first element of the fragment.
-/
theorem patch_remakes {selector : String} {last : Scene MemoryPage} {outcome : PatchOutcome}
    (hf : scene.page.document.Forest) (hallowed : scene.page.refused = [])
    (h : patch kind selector fragment scene = (last, .ok outcome)) :
    ∃ conditions found copy, Selector.parse? selector = some conditions ∧
      scene.page.Lists (fun node => scene.page.document.isMatch conditions node = true) found ∧
      scene.page.Edited last.page ∧
      scene.page.document.Remade kind (kind.reached scene.page.document found) copy last.page.document ∧
      (∀ n < scene.page.document.size,
        last.page.document.parent? n =
          (if kind.clears = true ∧ n ∈ kind.reached scene.page.document found then none
            else scene.page.document.parent? n) ∧
        (Page.isConnected last.page n = true ↔ Page.isConnected scene.page n = true ∧
          (kind.clears = true → ∀ t ∈ kind.reached scene.page.document found, ¬ scene.page.document.Above t n))) ∧
      outcome = { kind, inserted :=
        if kind.creates then (kind.reached scene.page.document found).map copy else [] } ∧
      (kind.creates = true → ∃ html, fragment = some html ∧ ∀ t ∈ kind.reached scene.page.document found,
        scene.page.document.Sprouted last.page.document html (copy t)) := by
  obtain ⟨conditions, found, hparse, hlists, hobstacle, hpatched⟩ := exists_targets_of_ok hf h
  have hedited := edited_patch kind selector fragment scene
  rw [h] at hedited
  have hin : ∀ t ∈ found, t ≠ Document.root ∧ scene.page.document.Above Document.root t := by
    intro t ht
    obtain ⟨hroot, hattached, -⟩ := (hlists.mem_iff t).1 ht
    exact ⟨hroot, hf.isAttached_iff.1 hattached⟩
  have hstart : Course kind fragment scene.page.document ([].filter (kind.reaches scene.page.document found)) id
      scene.page :=
    ⟨Document.Remade.refl kind id _, fun _ _ ht => absurd ht List.not_mem_nil, hallowed⟩
  rw [hallowed] at hobstacle
  have hsplit : found = [] ++ found := rfl
  obtain ⟨final, copy, htargets, hcourse, -⟩ :=
    patchTargets_course hf hobstacle hlists.ordered hlists.nodup hin hsplit hstart
  -- the patch of all targets is what the patch has done
  unfold patchElements at hpatched
  rw [htargets] at hpatched
  simp only [Except.map, Prod.mk.injEq, Except.ok.injEq] at hpatched
  obtain ⟨rfl, houtcome⟩ := hpatched
  have hremade := hcourse.remade
  have hf' := hremade.forest hf
  have hroot : Document.root ∉ kind.reached scene.page.document found := by
    intro hmem
    exact (hin Document.root (List.mem_filter.1 hmem).1).1 rfl
  refine ⟨conditions, found, copy, hparse, hlists, hedited, hremade, fun n hn => ⟨hremade.parent?_eq hf hn, ?_⟩,
    houtcome.symm, fun hk => ?_⟩
  · show final.page.document.isAttached n = true ↔ scene.page.document.isAttached n = true ∧ _
    rw [hf'.isAttached_iff, hf.isAttached_iff]
    exact hremade.attached_iff hf hroot hn
  · obtain ⟨html, hhtml, -, -⟩ := MemoryPage.exists_html_of_obstacle? hk hobstacle
    refine ⟨html, hhtml, fun t ht => ?_⟩
    obtain ⟨html', first, k, hhtml', hfirst, heq, hbase, hcopy⟩ := hcourse.copied hk ht
    obtain rfl : html = html' := Option.some.inj (hhtml.symm.trans hhtml')
    obtain ⟨p, hp, hpa, hparent⟩ := hremade.exists_parent_copy hf hk hin ht
    rw [heq] at hparent ⊢
    exact hcopy.sprouted hf' hbase hfirst hp hpa hparent

/-- Three elements of a class, the second of them in the first. -/
def nestedMatches : Scene MemoryPage :=
  { page := .withBody "<ul class='a'><li class='a'></li></ul><b class='a'></b>" }

/-- The item in the list is found, but has gone with the list by the time of its turn; what is put in matches, too. -/
theorem patch_remakes_nestedMatches :
    ∃ last found copy, patch .swap ".a" (some "<i class='a'></i>") nestedMatches =
        (last, .ok { kind := .swap, inserted := [5, 6] }) ∧
      3 ∈ found ∧ (PatchKind.swap.reached nestedMatches.page.document found).map copy = [5, 6] ∧
      nestedMatches.page.document.Remade .swap (PatchKind.swap.reached nestedMatches.page.document found) copy
        last.page.document ∧
      last.page.document.children 1 = [5, 6] ∧ Page.isConnected last.page 3 = false := by
  have hforest : nestedMatches.page.document.Forest := MemoryPage.forest_withBody _
  have hok : (patch .swap ".a" (some "<i class='a'></i>") nestedMatches).2 =
      .ok { kind := .swap, inserted := [5, 6] } := by decide +kernel
  have hpatch : patch .swap ".a" (some "<i class='a'></i>") nestedMatches =
      ((patch .swap ".a" (some "<i class='a'></i>") nestedMatches).1, .ok { kind := .swap, inserted := [5, 6] }) :=
    Prod.ext rfl hok
  obtain ⟨conditions, found, copy, hparse, hlists, -, hremade, -, houtcome, -⟩ := patch_remakes hforest rfl hpatch
  obtain rfl : conditions = [.inClass "a"] := Option.some.inj (hparse.symm.trans (by decide +kernel))
  have hitem : 3 ∈ found := (hlists.mem_iff 3).2 ⟨by decide, by decide +kernel, by decide +kernel⟩
  exact ⟨_, found, copy, hpatch, hitem, (congrArg PatchOutcome.inserted houtcome).symm, hremade,
    by decide +kernel, by decide +kernel⟩

end PageBindings
