import PageBindings.Page.Memory
import PageBindings.Patch
import PageBindings.Proofs.Document.Grafting

/-!
# What a patch does to a page

A patch edits the document and nothing else (`edited_patch`).  What is attached after it was attached before or is at
or below an element that it has put in (`attached_patch`); and a patch that fails has done nothing at all
(`page_patch_of_error`), since only the first target that it gets to can lack content.
-/

namespace PageBindings

namespace MemoryPage

/-- A page as it is after edits of its document. -/
def Edited (page page' : MemoryPage) : Prop :=
  ∃ document handedOut, page.document.Grows document ∧ page' = { page with document, handedOut }

/-- There is nothing to put in: no fragment, one without an element, or the page refuses to make elements. -/
def LacksContent (page : MemoryPage) (fragment : Option String) : Prop :=
  ∀ html, fragment = some html → Capability.create ∈ page.refused ∨ Markup.hasElement html = false

variable {page page' page'' : MemoryPage}

theorem Edited.refl (page : MemoryPage) : page.Edited page :=
  ⟨page.document, page.handedOut, Document.Grows.refl _, rfl⟩

theorem Edited.trans (h : page.Edited page') (h' : page'.Edited page'') : page.Edited page'' := by
  obtain ⟨d, handedOut, hd, rfl⟩ := h
  obtain ⟨d', handedOut', hd', rfl⟩ := h'
  exact ⟨d', handedOut', hd.trans hd', rfl⟩

theorem Edited.grows (h : page.Edited page') : page.document.Grows page'.document := by
  obtain ⟨d, handedOut, hd, rfl⟩ := h
  exact hd

theorem Edited.refused (h : page.Edited page') : page'.refused = page.refused := by
  obtain ⟨d, handedOut, -, rfl⟩ := h
  rfl

theorem Edited.marks (h : page.Edited page') : page'.marks = page.marks := by
  obtain ⟨d, handedOut, -, rfl⟩ := h
  rfl

theorem Edited.listeners (h : page.Edited page') : page'.listeners = page.listeners := by
  obtain ⟨d, handedOut, -, rfl⟩ := h
  rfl

/-! ### Single requests -/

theorem allow_eq_ok_iff {α : Type} {capability : Capability} {result : Except PageError α} {a : α} :
    page.allow capability result = .ok a ↔ capability ∉ page.refused ∧ result = .ok a := by
  unfold allow
  split
  · rename_i h
    have h : capability ∈ page.refused := by simpa using h
    simp [h]
  · rename_i h
    have h : capability ∉ page.refused := by simpa using h
    simp [h]

theorem create_eq_ok {html : String} {element : Option NodeId} (h : page.create html = .ok (element, page')) :
    Capability.create ∉ page.refused ∧ element = (page.document.read html).2.head? ∧
      ∃ handedOut, page' = { page with document := (page.document.read html).1, handedOut } := by
  obtain ⟨hallowed, h⟩ := allow_eq_ok_iff.1 h
  refine ⟨hallowed, ?_⟩
  cases hread : page.document.read html with
  | mk d roots =>
    cases roots with
    | nil =>
      simp only [hread, Except.ok.injEq, Prod.mk.injEq] at h
      exact ⟨h.1.symm, page.handedOut, h.2.symm⟩
    | cons e rest =>
      simp only [hread, Except.ok.injEq, Prod.mk.injEq] at h
      exact ⟨h.1.symm, _, h.2.symm⟩

/-- A fragment without an element leaves no trace. -/
theorem create_eq_none {html : String} (h : page.create html = .ok (none, page')) :
    page' = page ∧ Markup.hasElement html = false := by
  obtain ⟨-, h⟩ := allow_eq_ok_iff.1 h
  cases hread : page.document.read html with
  | mk d roots =>
    cases roots with
    | nil =>
      have hnil : (page.document.read html).2 = [] := by rw [hread]
      have hd : d = page.document := by
        rw [← Document.read_of_eq_nil hnil, hread]
      simp only [hread, Except.ok.injEq, Prod.mk.injEq, true_and] at h
      refine ⟨?_, (Document.read_eq_nil_iff _ _).1 hnil⟩
      rw [← h, hd]
    | cons e rest => simp [hread] at h

theorem create_eq_error {html : String} {cause : PageError} (h : page.create html = .error cause) :
    Capability.create ∈ page.refused := by
  unfold create allow at h
  split at h
  · rename_i hr
    simpa using hr
  · split at h <;> simp at h

theorem insertElement_eq_ok {kind : PatchKind} {target e : NodeId}
    (h : insertElement kind page target e = .ok page') :
    ∃ document, Document.put? kind page.document target e = some document ∧ page' = { page with document } := by
  cases kind with
  | swap =>
    obtain ⟨-, h⟩ := allow_eq_ok_iff.1 h
    cases hd : page.document.replaceNode? target e with
    | none => simp [hd] at h
    | some d =>
      simp only [hd, Except.ok.injEq] at h
      exact ⟨d, hd, h.symm⟩
  | append =>
    obtain ⟨-, h⟩ := allow_eq_ok_iff.1 h
    exact ⟨_, rfl, (Except.ok.inj h).symm⟩
  | prepend =>
    obtain ⟨-, h⟩ := allow_eq_ok_iff.1 h
    exact ⟨_, rfl, (Except.ok.inj h).symm⟩
  | remove => exact ⟨_, rfl, (Except.ok.inj h).symm⟩
  | reset => exact ⟨_, rfl, (Except.ok.inj h).symm⟩

theorem alterElement_eq_ok {kind : PatchKind} {target : NodeId} (h : alterElement kind page target = .ok page') :
    ∃ document, page.document.Grows document ∧ document.size = page.document.size ∧
      page' = { page with document } := by
  cases kind with
  | remove =>
    obtain ⟨-, h⟩ := allow_eq_ok_iff.1 h
    exact ⟨_, Document.grows_detach _ _, Document.size_detach _ _, (Except.ok.inj h).symm⟩
  | reset =>
    simp only [alterElement, Page.reset, reset] at h
    split at h
    · refine ⟨_, Document.grows_forgetValues _ _, ?_, (Except.ok.inj h).symm⟩
      exact Document.size_forgetValues _ _
    · split at h
      · exact ⟨_, Document.grows_setValue _ _ _, Document.size_modify _ _ _, (Except.ok.inj h).symm⟩
      · simp at h
  | swap => exact ⟨_, Document.Grows.refl _, rfl, (Except.ok.inj h).symm⟩
  | append => exact ⟨_, Document.Grows.refl _, rfl, (Except.ok.inj h).symm⟩
  | prepend => exact ⟨_, Document.Grows.refl _, rfl, (Except.ok.inj h).symm⟩

end MemoryPage

/-! ### One target -/

/--
What patching one target makes of a page: it is passed over if it is not attached any more, there is nothing to put
in, a new element is made and put in or refused, or the target is altered.
-/
inductive Patched (kind : PatchKind) (fragment : Option String) (page : MemoryPage) (target : NodeId) :
    MemoryPage → Except PatchError (List NodeId) → Prop
  | skipped (detached : page.document.isAttached target = false) : Patched kind fragment page target page (.ok [])
  | lacking (creates : kind.creates = true) (lacks : page.LacksContent fragment) (cause : PatchError) :
      Patched kind fragment page target page (.error cause)
  | refused (has : ¬ page.LacksContent fragment) (html : String) (handedOut : List NodeId) :
      Patched kind fragment page target { page with document := (page.document.read html).1, handedOut } (.ok [])
  | put (attached : page.document.isAttached target = true) (creates : kind.creates = true)
      (has : ¬ page.LacksContent fragment) {html : String} {e : NodeId} (he : e ∈ (page.document.read html).2)
      {document : Document} (hput : Document.put? kind (page.document.read html).1 target e = some document)
      (handedOut : List NodeId) : Patched kind fragment page target { page with document, handedOut } (.ok [e])
  | altered (local_ : kind.creates = false) {document : Document} (grows : page.document.Grows document)
      (size : document.size = page.document.size) :
      Patched kind fragment page target { page with document } (.ok [])

variable {kind : PatchKind} {fragment : Option String} {scene : Scene MemoryPage} {target : NodeId}

private theorem patchWithContent_patched (attached : scene.page.document.isAttached target = true)
    (creates : kind.creates = true) :
    Patched kind fragment scene.page target (patchWithContent kind fragment scene target).1.page
      (patchWithContent kind fragment scene target).2 := by
  unfold patchWithContent
  cases fragment with
  | none => exact .lacking creates (fun html h => by simp at h) _
  | some html =>
    dsimp only
    cases hc : Page.create scene.page html with
    | error cause =>
      refine .lacking creates (fun other h => .inl ?_) _
      exact MemoryPage.create_eq_error hc
    | ok made =>
      obtain ⟨element, page⟩ := made
      cases element with
      | none =>
        obtain ⟨rfl, hnone⟩ := MemoryPage.create_eq_none hc
        exact .lacking creates (fun other h => .inr (Option.some.inj h ▸ hnone)) _
      | some e =>
        obtain ⟨hallowed, helement, handedOut, rfl⟩ := MemoryPage.create_eq_ok hc
        have he : e ∈ (scene.page.document.read html).2 := List.mem_of_mem_head? helement.symm
        have has : ¬ scene.page.LacksContent (some html) := by
          intro h
          rcases h html rfl with h | h
          · exact hallowed h
          · rw [(Document.read_eq_nil_iff _ _).2 h] at he
            simp at he
        dsimp only
        cases hi : insertElement kind { scene.page with
            document := (scene.page.document.read html).1, handedOut } target e with
        | error cause => exact .refused has html handedOut
        | ok page =>
          obtain ⟨document, hput, rfl⟩ := MemoryPage.insertElement_eq_ok hi
          exact .put attached creates has he hput handedOut

theorem patchElement_patched (kind : PatchKind) (fragment : Option String) (scene : Scene MemoryPage)
    (target : NodeId) :
    Patched kind fragment scene.page target (patchElement kind fragment scene target).1.page
      (patchElement kind fragment scene target).2 := by
  unfold patchElement
  split
  · rename_i h
    exact .skipped (by simpa [Page.isConnected] using h)
  · rename_i h
    have attached : scene.page.document.isAttached target = true := by simpa [Page.isConnected] using h
    split
    · rename_i creates
      exact patchWithContent_patched attached creates
    · rename_i hk
      have local_ : kind.creates = false := by simpa using hk
      dsimp only
      cases ha : alterElement kind scene.page target with
      | error cause => exact .altered local_ (Document.Grows.refl _) rfl
      | ok page =>
        obtain ⟨document, grows, size, rfl⟩ := MemoryPage.alterElement_eq_ok ha
        exact .altered local_ grows size

namespace Patched

variable {page page' : MemoryPage} {result : Except PatchError (List NodeId)} {inserted : List NodeId} {n : NodeId}

theorem edited (h : Patched kind fragment page target page' result) : page.Edited page' := by
  cases h with
  | skipped => exact .refl page
  | lacking => exact .refl page
  | refused _ html handedOut => exact ⟨_, handedOut, Document.grows_read _ _, rfl⟩
  | put attached creates _ he hput handedOut =>
    refine ⟨_, handedOut, Document.grows_put? creates he hput ?_, rfl⟩
    exact fun hf => (hf.isAttached_iff.1 attached).lt_size hf.root_lt_size
  | altered _ grows => exact ⟨_, page.handedOut, grows, rfl⟩

theorem attached (h : Patched kind fragment page target page' (.ok inserted)) (hf : page.document.Forest)
    (hn : page'.document.Above Document.root n) :
    page.document.Above Document.root n ∨ ∃ e ∈ inserted, page'.document.Above e n := by
  cases h with
  | skipped => exact .inl hn
  | refused _ html handedOut => exact .inl (Document.attached_read hf hn)
  | put attached creates _ he hput handedOut =>
    rcases Document.attached_put? creates he hput hf hn with h | h
    · exact .inl h
    · exact .inr ⟨_, List.mem_singleton_self _, h⟩
  | altered _ grows size =>
    refine .inl (grows.above hf ?_ hn)
    rw [← size]
    exact hn.lt_size (grows.forest hf).root_lt_size

theorem of_error {cause : PatchError} (h : Patched kind fragment page target page' (.error cause)) :
    kind.creates = true ∧ page.LacksContent fragment := by
  cases h with
  | lacking creates lacks => exact ⟨creates, lacks⟩

theorem eq_nil (h : Patched kind fragment page target page' (.ok inserted)) (hk : kind.creates = false) :
    inserted = [] := by
  cases h with
  | skipped => rfl
  | refused => rfl
  | put _ creates => simp [hk] at creates
  | altered => rfl

/-- A patch that needs content and lacks it passes over targets at most. -/
theorem of_lacks (h : Patched kind fragment page target page' result) (creates : kind.creates = true)
    (lacks : page.LacksContent fragment) : page' = page ∧ ∀ inserted, result = .ok inserted → inserted = [] := by
  cases h with
  | skipped => exact ⟨rfl, fun inserted h => (Except.ok.inj h).symm⟩
  | lacking => exact ⟨rfl, fun inserted h => by simp at h⟩
  | refused has => exact absurd lacks has
  | put _ _ has => exact absurd lacks has
  | altered local_ => simp [creates] at local_

end Patched

/-! ### All targets -/

theorem edited_patchTargets (kind : PatchKind) (fragment : Option String) (scene : Scene MemoryPage)
    (targets : List NodeId) : scene.page.Edited (patchTargets kind fragment scene targets).1.page := by
  induction targets generalizing scene with
  | nil => exact .refl _
  | cons target rest ih =>
    have hone := (patchElement_patched kind fragment scene target).edited
    have hrest := ih (patchElement kind fragment scene target).1
    unfold patchTargets
    split
    · rename_i next cause heq
      rw [heq] at hone
      exact hone
    · rename_i next inserted heq
      rw [heq] at hone hrest
      dsimp only at hone hrest
      split
      · rename_i last cause heq'
        rw [heq'] at hrest
        exact hone.trans hrest
      · rename_i last more heq'
        rw [heq'] at hrest
        exact hone.trans hrest

section

variable {π : Type} [Page π] {start last : Scene π} {targets rest inserted : List NodeId}

/-- If all targets were patched, then the first one was, and the others after it. -/
theorem patchTargets_cons_eq_ok (h : patchTargets kind fragment start (target :: rest) = (last, .ok inserted)) :
    ∃ next first more, patchElement kind fragment start target = (next, .ok first) ∧
      patchTargets kind fragment next rest = (last, .ok more) ∧ inserted = first ++ more := by
  unfold patchTargets at h
  split at h
  · simp at h
  · rename_i next first heq
    split at h
    · simp at h
    · rename_i last' more heq'
      simp only [Prod.mk.injEq, Except.ok.injEq] at h
      obtain ⟨rfl, rfl⟩ := h
      exact ⟨next, first, more, heq, heq', rfl⟩

theorem patchTargets_append_eq_ok (h : patchTargets kind fragment start (targets ++ rest) = (last, .ok inserted)) :
    ∃ next first more, patchTargets kind fragment start targets = (next, .ok first) ∧
      patchTargets kind fragment next rest = (last, .ok more) ∧ inserted = first ++ more := by
  induction targets generalizing start inserted with
  | nil => exact ⟨start, [], inserted, rfl, h, rfl⟩
  | cons target others ih =>
    obtain ⟨next, first, more, heq, hothers, rfl⟩ := patchTargets_cons_eq_ok h
    obtain ⟨next', second, more', heq', hrest, rfl⟩ := ih hothers
    refine ⟨next', first ++ second, more', ?_, hrest, (List.append_assoc _ _ _).symm⟩
    rw [patchTargets, heq]
    simp only [heq']

/-- Targets are patched one after the other, up to the end or to the first one that fails. -/
theorem exists_patchTargets_eq_ok (kind : PatchKind) (fragment : Option String) (start : Scene π)
    (targets : List NodeId) :
    ∃ got rest next inserted, targets = got ++ rest ∧ patchTargets kind fragment start got = (next, .ok inserted) ∧
      (rest = [] ∨ ∃ t after last cause, rest = t :: after ∧
        patchElement kind fragment next t = (last, .error cause) ∧
        patchTargets kind fragment start targets = (last, .error cause)) := by
  induction targets generalizing start with
  | nil => exact ⟨[], [], start, [], rfl, rfl, .inl rfl⟩
  | cons target others ih =>
    cases hone : patchElement kind fragment start target with
    | mk next result =>
      cases result with
      | error cause =>
        refine ⟨[], target :: others, start, [], rfl, rfl, .inr ⟨target, others, next, cause, rfl, hone, ?_⟩⟩
        rw [patchTargets, hone]
      | ok first =>
        obtain ⟨got, rest, next', more, rfl, hgot, hrest⟩ := ih next
        refine ⟨target :: got, rest, next', first ++ more, rfl, ?_, hrest.imp_right ?_⟩
        · rw [patchTargets, hone]
          simp only [hgot]
        · rintro ⟨t, after, last, cause, rfl, hfailed, hall⟩
          refine ⟨t, after, last, cause, rfl, hfailed, ?_⟩
          rw [patchTargets, hone]
          simp only [hall]

end

/-- What is attached after the targets were patched was attached before, or is at or below an inserted element. -/
theorem attached_patchTargets {targets : List NodeId} {last : Scene MemoryPage} {inserted : List NodeId} {n : NodeId}
    (h : patchTargets kind fragment scene targets = (last, .ok inserted)) (hf : scene.page.document.Forest)
    (hn : last.page.document.Above Document.root n) :
    scene.page.document.Above Document.root n ∨ ∃ e ∈ inserted, last.page.document.Above e n := by
  induction targets generalizing scene inserted with
  | nil =>
    simp only [patchTargets, Prod.mk.injEq] at h
    exact .inl (h.1 ▸ hn)
  | cons target rest ih =>
    obtain ⟨next, first, more, heq, hrest, rfl⟩ := patchTargets_cons_eq_ok h
    have hone := patchElement_patched kind fragment scene target
    rw [heq] at hone
    have hgrows := (edited_patchTargets kind fragment next rest).grows
    rw [hrest] at hgrows
    have hf' := hone.edited.grows.forest hf
    -- a later target may take an element out again that an earlier one put in, but then nothing below it is attached
    rcases ih hrest hf' with ih | ⟨e, he, ih⟩
    · rcases hone.attached hf ih with h | ⟨e, he, h⟩
      · exact .inl h
      · exact .inr ⟨e, List.mem_append_left _ he, hgrows.above_of_attached hf' hn h⟩
    · exact .inr ⟨e, List.mem_append_right _ he, ih⟩

private theorem eq_nil_of_patchTargets {targets : List NodeId} {last : Scene MemoryPage} {inserted : List NodeId}
    (h : patchTargets kind fragment scene targets = (last, .ok inserted)) (hk : kind.creates = false) :
    inserted = [] := by
  induction targets generalizing scene inserted with
  | nil =>
    simp only [patchTargets, Prod.mk.injEq, Except.ok.injEq] at h
    exact h.2.symm
  | cons target rest ih =>
    obtain ⟨next, first, more, heq, hrest, rfl⟩ := patchTargets_cons_eq_ok h
    have hone := patchElement_patched kind fragment scene target
    rw [heq] at hone
    rw [hone.eq_nil hk, ih hrest]
    rfl

/-- A patch that needs content and lacks it does nothing to any target. -/
private theorem patchTargets_of_lacks {scene : Scene MemoryPage} (creates : kind.creates = true)
    (lacks : scene.page.LacksContent fragment) (targets : List NodeId) :
    (patchTargets kind fragment scene targets).1.page = scene.page ∧
      ∀ inserted, (patchTargets kind fragment scene targets).2 = .ok inserted → inserted = [] := by
  induction targets generalizing scene with
  | nil => exact ⟨rfl, fun inserted h => (Except.ok.inj h).symm⟩
  | cons target rest ih =>
    have hone := (patchElement_patched kind fragment scene target).of_lacks creates lacks
    unfold patchTargets
    split
    · rename_i next cause heq
      rw [heq] at hone
      exact ⟨hone.1, fun inserted h => by simp at h⟩
    · rename_i next first heq
      rw [heq] at hone
      have hpage : next.page = scene.page := hone.1
      have hlacks : next.page.LacksContent fragment := hpage ▸ lacks
      have hrest := ih hlacks
      split
      · rename_i last cause heq'
        rw [heq'] at hrest
        exact ⟨hrest.1.trans hpage, fun inserted h => by simp at h⟩
      · rename_i last more heq'
        rw [heq'] at hrest
        refine ⟨hrest.1.trans hpage, fun inserted h => ?_⟩
        rw [← Except.ok.inj h, hone.2 first rfl, hrest.2 more rfl]
        rfl

/-- Targets are given up only for want of content. -/
theorem patchTargets_of_error {targets : List NodeId} {last : Scene MemoryPage} {cause : PatchError}
    (h : patchTargets kind fragment scene targets = (last, .error cause)) :
    kind.creates = true ∧ scene.page.LacksContent fragment := by
  induction targets generalizing scene with
  | nil => simp [patchTargets] at h
  | cons target rest ih =>
    have hone := patchElement_patched kind fragment scene target
    unfold patchTargets at h
    split at h
    · rename_i next cause' heq
      rw [heq] at hone
      exact hone.of_error
    · rename_i next first heq
      rw [heq] at hone
      split at h
      · rename_i last' cause' heq'
        simp only [Prod.mk.injEq, Except.error.injEq] at h
        obtain ⟨rfl, rfl⟩ := h
        obtain ⟨creates, lacks⟩ := ih heq'
        -- what a later target lacks the first one lacked, too: patches refuse nothing and allow nothing
        refine ⟨creates, fun html hhtml => ?_⟩
        rw [← hone.edited.refused]
        exact lacks html hhtml
      · simp at h

/-! ### Patches -/

theorem edited_patchElements (kind : PatchKind) (fragment : Option String) (scene : Scene MemoryPage)
    (targets : List NodeId) : scene.page.Edited (patchElements kind fragment scene targets).1.page :=
  edited_patchTargets kind fragment scene targets

theorem edited_patch (kind : PatchKind) (selector : String) (fragment : Option String) (scene : Scene MemoryPage) :
    scene.page.Edited (patch kind selector fragment scene).1.page := by
  unfold patch
  split
  · exact .refl _
  · exact .refl _
  · exact edited_patchElements kind fragment scene _

/-- A patch that needs content and lacks it leaves the page as it was, and gives nothing to bind. -/
theorem patch_of_lacks (creates : kind.creates = true) (lacks : scene.page.LacksContent fragment)
    (selector : String) :
    (patch kind selector fragment scene).1.page = scene.page ∧
      ∀ outcome, (patch kind selector fragment scene).2 = .ok outcome → outcome.inserted = [] := by
  unfold patch
  split
  · exact ⟨rfl, fun outcome h => by simp at h⟩
  · exact ⟨rfl, fun outcome h => by simp at h⟩
  · rename_i targets _ _
    obtain ⟨hpage, hnil⟩ := patchTargets_of_lacks creates lacks targets
    refine ⟨hpage, fun outcome h => ?_⟩
    cases hp : (patchTargets kind fragment scene targets).2 with
    | error cause => simp [patchElements, hp, Except.map] at h
    | ok inserted =>
      simp only [patchElements, hp, Except.map, Except.ok.injEq] at h
      rw [← h]
      exact hnil inserted hp

/-- A patch that fails leaves the page as it was. -/
theorem page_patch_of_error {selector : String} {last : Scene MemoryPage} {cause : PatchError}
    (h : patch kind selector fragment scene = (last, .error cause)) : last.page = scene.page := by
  unfold patch at h
  split at h
  · simp only [Prod.mk.injEq] at h
    rw [← h.1]
  · simp only [Prod.mk.injEq] at h
    rw [← h.1]
  · rename_i targets _ _
    unfold patchElements at h
    cases hp : patchTargets kind fragment scene targets with
    | mk next result =>
      rw [hp] at h
      cases result with
      | error cause' =>
        simp only [Prod.mk.injEq] at h
        obtain ⟨creates, lacks⟩ := patchTargets_of_error hp
        have hpage := (patchTargets_of_lacks creates lacks targets).1
        rw [hp] at hpage
        exact h.1 ▸ hpage
      | ok inserted => simp [Except.map] at h

/-- A patch that succeeds has patched all its targets. -/
theorem patch_eq_ok {selector : String} {last : Scene MemoryPage} {outcome : PatchOutcome}
    (h : patch kind selector fragment scene = (last, .ok outcome)) :
    outcome.kind = kind ∧ ∃ targets, patchTargets kind fragment scene targets = (last, .ok outcome.inserted) := by
  unfold patch at h
  split at h
  · simp at h
  · simp at h
  · rename_i targets _ _
    unfold patchElements at h
    cases hp : patchTargets kind fragment scene targets with
    | mk next result =>
      rw [hp] at h
      cases result with
      | error cause => simp [Except.map] at h
      | ok inserted =>
        simp only [Except.map, Prod.mk.injEq, Except.ok.injEq] at h
        obtain ⟨rfl, rfl⟩ := h
        exact ⟨rfl, targets, hp⟩

theorem attached_patch {selector : String} {last : Scene MemoryPage} {outcome : PatchOutcome} {n : NodeId}
    (h : patch kind selector fragment scene = (last, .ok outcome)) (hf : scene.page.document.Forest)
    (hn : last.page.document.Above Document.root n) :
    scene.page.document.Above Document.root n ∨ ∃ e ∈ outcome.inserted, last.page.document.Above e n := by
  obtain ⟨-, targets, hp⟩ := patch_eq_ok h
  exact attached_patchTargets hp hf hn

/-- All that was put in is to be bound. -/
theorem toBind_patch {selector : String} {last : Scene MemoryPage} {outcome : PatchOutcome}
    (h : patch kind selector fragment scene = (last, .ok outcome)) : outcome.toBind = outcome.inserted := by
  obtain ⟨hkind, targets, hp⟩ := patch_eq_ok h
  unfold PatchOutcome.toBind
  split
  · rfl
  · rename_i hlocal
    have hlocal : kind.creates = false := by simpa [PatchKind.bindsAfterwards, hkind] using hlocal
    exact (eq_nil_of_patchTargets hp hlocal).symm

end PageBindings
