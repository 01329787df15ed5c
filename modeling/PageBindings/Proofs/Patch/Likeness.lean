import PageBindings.Proofs.Patch.Basic

/-!
# What a patch looks at

A patch looks at the document and at what the page refuses, and hands out the numbers of the elements that it makes.
What is bound on the page, what was sent and whether listeners are refused is nothing to it: on pages that are the
same but for that (`MemoryPage.Resembles`) a patch gives the same result and leaves the same document
(`matching_patch`).
-/

namespace PageBindings

open MemoryPage (Capability)

/-- Both fail for the same reason, or neither fails and the results are related. -/
inductive Both {α : Type} (related : α → α → Prop) : Except PageError α → Except PageError α → Prop
  | error (cause : PageError) : Both related (.error cause) (.error cause)
  | ok {a a' : α} (h : related a a') : Both related (.ok a) (.ok a')

namespace MemoryPage

/-- The pages have the same document, have handed out the same elements and refuse the same apart from listeners. -/
structure Resembles (page page' : MemoryPage) : Prop where
  document : page'.document = page.document
  handedOut : page'.handedOut = page.handedOut
  refused (capability : Capability) (hne : capability ≠ .listener) :
    capability ∈ page'.refused ↔ capability ∈ page.refused

namespace Resembles

variable {page page' : MemoryPage}

/-- The same edit of both. -/
theorem edit (h : page.Resembles page') (document : Document) (handedOut : List NodeId) :
    { page with document, handedOut : MemoryPage }.Resembles { page' with document, handedOut } :=
  ⟨rfl, rfl, h.refused⟩

theorem allow (h : page.Resembles page') {capability : Capability} (hne : capability ≠ .listener) {α : Type}
    {related : α → α → Prop} {result result' : Except PageError α} (hresult : Both related result result') :
    Both related (page.allow capability result) (page'.allow capability result') := by
  have hcontains : page'.refused.contains capability = page.refused.contains capability := by
    rw [Bool.eq_iff_iff, List.contains_iff_mem, List.contains_iff_mem]
    exact h.refused capability hne
  unfold MemoryPage.allow
  rw [hcontains]
  split
  · exact .error _
  · exact hresult

theorem query (h : page.Resembles page') (below : Option NodeId) (selector : String) :
    Page.query page' below selector = Page.query page below selector := by
  show MemoryPage.query page' below selector = MemoryPage.query page below selector
  unfold MemoryPage.query
  rw [h.document]

theorem attribute? (h : page.Resembles page') (n : NodeId) (name : String) :
    Page.attribute? page' n name = Page.attribute? page n name :=
  congrArg (Document.attribute? · n name) h.document

theorem create (h : page.Resembles page') (html : String) :
    Both (fun made made' => made'.1 = made.1 ∧ made.2.Resembles made'.2) (Page.create page html)
      (Page.create page' html) := by
  show Both _ (page.allow .create _) (page'.allow .create _)
  refine h.allow (by decide) ?_
  rw [h.document, h.handedOut]
  cases page.document.read html with
  | mk document roots =>
    cases roots with
    | nil => exact .ok ⟨rfl, h.edit document page.handedOut⟩
    | cons element rest => exact .ok ⟨rfl, h.edit document _⟩

theorem insertElement (h : page.Resembles page') (kind : PatchKind) (target element : NodeId) :
    Both Resembles (insertElement kind page target element) (insertElement kind page' target element) := by
  cases kind with
  | swap =>
    show Both _ (page.allow .replace _) (page'.allow .replace _)
    refine h.allow (by decide) ?_
    rw [h.document]
    cases page.document.replaceNode? target element with
    | none => exact .error _
    | some document => exact .ok ⟨rfl, h.handedOut, h.refused⟩
  | append =>
    show Both _ (page.allow .append _) (page'.allow .append _)
    exact h.allow (by decide) (.ok ⟨by rw [h.document], h.handedOut, h.refused⟩)
  | prepend =>
    show Both _ (page.allow .prepend _) (page'.allow .prepend _)
    exact h.allow (by decide) (.ok ⟨by rw [h.document], h.handedOut, h.refused⟩)
  | remove => exact .ok h
  | reset => exact .ok h

theorem alterElement (h : page.Resembles page') (kind : PatchKind) (target : NodeId) :
    Both Resembles (alterElement kind page target) (alterElement kind page' target) := by
  cases kind with
  | remove =>
    show Both _ (page.allow .remove _) (page'.allow .remove _)
    exact h.allow (by decide) (.ok ⟨by rw [h.document], h.handedOut, h.refused⟩)
  | reset =>
    show Both _ (page.reset target) (page'.reset target)
    unfold reset
    rw [h.document]
    split
    · exact .ok ⟨rfl, h.handedOut, h.refused⟩
    · split
      · exact .ok ⟨rfl, h.handedOut, h.refused⟩
      · exact .error _
  | swap => exact .ok h
  | append => exact .ok h
  | prepend => exact .ok h

end Resembles

end MemoryPage

/-! ### Patching -/

/-- The results are the same, and the pages look the same to a patch. -/
structure Matching {α : Type} (out out' : Scene MemoryPage × α) : Prop where
  page : out.1.page.Resembles out'.1.page
  result : out'.2 = out.2

variable {scene scene' : Scene MemoryPage} {kind : PatchKind} {fragment : Option String} {target : NodeId}

theorem Matching.exists_eq {α : Type} {out out' : Scene MemoryPage × α} (h : Matching out out') :
    ∃ next next' result, next.page.Resembles next'.page ∧ out = (next, result) ∧ out' = (next', result) :=
  ⟨out.1, out'.1, out.2, h.page, rfl, by rw [← h.result]⟩

/-- A change that is refused is reported and leaves the page as it is. -/
private theorem resembles_after (h : scene.page.Resembles scene'.page) {result result' : Except PageError MemoryPage}
    (hresult : Both MemoryPage.Resembles result result') :
    (scene.after kind result).page.Resembles (scene'.after kind result').page := by
  cases hresult with
  | error cause => exact h
  | ok hpage => exact hpage

private theorem matching_patchWithContent (h : scene.page.Resembles scene'.page) :
    Matching (patchWithContent kind fragment scene target) (patchWithContent kind fragment scene' target) := by
  unfold patchWithContent
  cases fragment with
  | none => exact ⟨h, rfl⟩
  | some html =>
    have hcreate := h.create html
    dsimp only
    generalize Page.create scene.page html = made at hcreate ⊢
    generalize Page.create scene'.page html = made' at hcreate ⊢
    cases hcreate with
    | error cause => exact ⟨h, rfl⟩
    | @ok made made' hmade =>
      obtain ⟨element, page⟩ := made
      obtain ⟨element', page'⟩ := made'
      obtain ⟨rfl, hpage⟩ := hmade
      cases element' with
      | none => exact ⟨hpage, rfl⟩
      | some e =>
        have hinsert := hpage.insertElement kind target e
        refine ⟨resembles_after hpage hinsert, ?_⟩
        dsimp only at hinsert ⊢
        generalize insertElement kind page target e = result at hinsert ⊢
        generalize insertElement kind page' target e = result' at hinsert ⊢
        cases hinsert <;> rfl

private theorem matching_patchElement (h : scene.page.Resembles scene'.page) (kind : PatchKind)
    (fragment : Option String) (target : NodeId) :
    Matching (patchElement kind fragment scene target) (patchElement kind fragment scene' target) := by
  have hconnected : Page.isConnected scene'.page target = Page.isConnected scene.page target :=
    congrArg (Document.isAttached · target) h.document
  unfold patchElement
  rw [hconnected]
  split
  · exact ⟨h, rfl⟩
  · split
    · exact matching_patchWithContent h
    · exact ⟨resembles_after h (h.alterElement kind target), rfl⟩

theorem matching_patchTargets (h : scene.page.Resembles scene'.page) (kind : PatchKind) (fragment : Option String)
    (targets : List NodeId) :
    Matching (patchTargets kind fragment scene targets) (patchTargets kind fragment scene' targets) := by
  induction targets generalizing scene scene' with
  | nil => exact ⟨h, rfl⟩
  | cons target rest ih =>
    have hone := matching_patchElement h kind fragment target
    unfold patchTargets
    -- of the two outcomes only `hone` matters, and of the rest only the pages and the result
    generalize patchElement kind fragment scene target = one at hone ⊢
    generalize patchElement kind fragment scene' target = one' at hone ⊢
    obtain ⟨next, next', result, hpage, rfl, rfl⟩ := hone.exists_eq
    cases result with
    | error cause => exact ⟨hpage, rfl⟩
    | ok first =>
      have hrest := ih hpage
      dsimp only
      generalize patchTargets kind fragment next rest = all at hrest ⊢
      generalize patchTargets kind fragment next' rest = all' at hrest ⊢
      obtain ⟨last, last', result, hlast, rfl, rfl⟩ := hrest.exists_eq
      cases result with
      | error cause => exact ⟨hlast, rfl⟩
      | ok more => exact ⟨hlast, rfl⟩

/-- A patch gives the same on pages that look the same to it. -/
theorem matching_patch (h : scene.page.Resembles scene'.page) (kind : PatchKind) (selector : String)
    (fragment : Option String) :
    Matching (patch kind selector fragment scene) (patch kind selector fragment scene') := by
  unfold patch
  rw [h.query]
  split
  · exact ⟨h, rfl⟩
  · exact ⟨h, rfl⟩
  · rename_i targets _ _
    have htargets := matching_patchTargets h kind fragment targets
    refine ⟨htargets.page, ?_⟩
    unfold patchElements
    dsimp only
    rw [htargets.result]

end PageBindings
