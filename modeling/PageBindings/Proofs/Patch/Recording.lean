import PageBindings.Proofs.Page.Recording

/-!
# Patches of pages with a record

A patch of a page with a record does what it does to the page below, and its record is orderly afterwards if it was
before (`Faithful`).  A target can be given a new element wherever it is, since a patch passes over what is not
attached, and new elements have no place of their own yet.
-/

namespace PageBindings

/-- The scene without the record. -/
def Scene.unrecorded (scene : Scene RecordingPage) : Scene MemoryPage :=
  ⟨scene.page.base, scene.notices⟩

/-- Apart from the record the scene is the plain one, and the record is orderly. -/
structure Scene.Records (scene : Scene RecordingPage) (plain : Scene MemoryPage) : Prop where
  plain_eq : plain = scene.unrecorded
  orderly : scene.page.Orderly

/-- Besides, the results are the same. -/
structure Faithful {α : Type} (out : Scene RecordingPage × α) (plain : Scene MemoryPage × α) : Prop where
  plain_eq : plain = (out.1.unrecorded, out.2)
  orderly : out.1.page.Orderly

theorem Scene.Records.faithful {α : Type} {scene : Scene RecordingPage} {plain : Scene MemoryPage}
    (h : scene.Records plain) (result : α) : Faithful (scene, result) (plain, result) :=
  ⟨congrArg (·, result) h.plain_eq, h.orderly⟩

theorem Faithful.records {α : Type} {out : Scene RecordingPage × α} {plain : Scene MemoryPage × α}
    (h : Faithful out plain) : out.1.Records plain.1 :=
  ⟨congrArg Prod.fst h.plain_eq, h.orderly⟩

variable {kind : PatchKind} {fragment : Option String} {scene : Scene RecordingPage} {page : RecordingPage}
  {target e : NodeId} {html : String}

/-! ### Single requests -/

theorem insertElement_recording (page : RecordingPage) (hk : kind.creates = true) (target e : NodeId) :
    insertElement kind page target e = (insertElement kind page.base target e).map
      (page.become (Document.insertion? kind page.base.document target e)) := by
  cases kind with
  | swap => rfl
  | append => rfl
  | prepend => rfl
  | remove => simp [PatchKind.creates] at hk
  | reset => simp [PatchKind.creates] at hk

theorem alterElement_recording (page : RecordingPage) (hk : kind.creates = false) (target : NodeId) :
    alterElement kind page target = (alterElement kind page.base target).map (page.become none) := by
  cases kind with
  | remove => rfl
  | reset => rfl
  | swap => simp [PatchKind.creates] at hk
  | append => simp [PatchKind.creates] at hk
  | prepend => simp [PatchKind.creates] at hk

/-- Making a new element moves no old one. -/
theorem RecordingPage.Orderly.create (h : page.Orderly) {element : Option NodeId} {base : MemoryPage}
    (hc : Page.create page.base html = .ok (element, base)) : (page.become none base).Orderly := by
  obtain ⟨-, -, handedOut, rfl⟩ := MemoryPage.create_eq_ok hc
  exact h.edit (Document.grows_read page.base.document html)

/-- A new element that the page lets be put in is put in where there is a place. -/
theorem RecordingPage.Orderly.insertElement (h : page.Orderly) (hk : kind.creates = true)
    (ht : target < page.base.document.size) {base next : MemoryPage}
    (hc : Page.create page.base html = .ok (some e, base)) (hi : insertElement kind base target e = .ok next) :
    ((page.become none base).become (Document.insertion? kind base.document target e) next).Orderly := by
  obtain ⟨-, helement, handedOut, rfl⟩ := MemoryPage.create_eq_ok hc
  obtain ⟨document, hput, rfl⟩ := MemoryPage.insertElement_eq_ok hi
  exact h.insert hk (List.mem_of_mem_head? helement.symm) ht hput

/-! ### Targets -/

theorem faithful_patchWithContent (h : scene.page.Orderly) (hk : kind.creates = true)
    (attached : scene.page.base.document.isAttached target = true) :
    Faithful (patchWithContent kind fragment scene target)
      (patchWithContent kind fragment scene.unrecorded target) := by
  have ht : target < scene.page.base.document.size :=
    (h.present.isAttached_iff.1 attached).lt_size h.present.root_lt_size
  unfold patchWithContent
  cases fragment with
  | none => exact ⟨rfl, h⟩
  | some html =>
    have hplain : Page.create scene.unrecorded.page html = Page.create scene.page.base html := rfl
    dsimp only
    rw [RecordingPage.create_eq, hplain]
    cases hc : Page.create scene.page.base html with
    | error cause => exact ⟨rfl, h⟩
    | ok made =>
      obtain ⟨element, base⟩ := made
      have hmade := h.create hc
      cases element with
      | none => exact ⟨rfl, hmade⟩
      | some e =>
        have hinsert := insertElement_recording (scene.page.become none base) hk target e
        have hbelow : (scene.page.become none base).base = base := rfl
        dsimp only [Except.map]
        rw [hinsert, hbelow]
        cases hi : insertElement kind base target e with
        | error cause => exact ⟨rfl, hmade⟩
        | ok next => exact ⟨rfl, h.insertElement hk ht hc hi⟩

theorem faithful_patchElement (h : scene.page.Orderly) (kind : PatchKind) (fragment : Option String)
    (target : NodeId) :
    Faithful (patchElement kind fragment scene target) (patchElement kind fragment scene.unrecorded target) := by
  have hconnected : Page.isConnected scene.page target = scene.page.base.document.isAttached target := rfl
  have hplain : Page.isConnected scene.unrecorded.page target = scene.page.base.document.isAttached target := rfl
  unfold patchElement
  rw [hconnected, hplain]
  cases attached : scene.page.base.document.isAttached target with
  | false => exact ⟨rfl, h⟩
  | true =>
    cases hk : kind.creates with
    | true => exact faithful_patchWithContent h hk attached
    | false =>
      show Faithful (scene.after kind (alterElement kind scene.page target), _)
        (scene.unrecorded.after kind (alterElement kind scene.page.base target), _)
      rw [alterElement_recording scene.page hk]
      cases ha : alterElement kind scene.page.base target with
      | error cause => exact ⟨rfl, h⟩
      | ok next =>
        obtain ⟨document, grows, -, rfl⟩ := MemoryPage.alterElement_eq_ok ha
        exact ⟨rfl, h.edit grows⟩

theorem faithful_patchTargets (h : scene.page.Orderly) (kind : PatchKind) (fragment : Option String)
    (targets : List NodeId) :
    Faithful (patchTargets kind fragment scene targets) (patchTargets kind fragment scene.unrecorded targets) := by
  induction targets generalizing scene with
  | nil => exact ⟨rfl, h⟩
  | cons target rest ih =>
    obtain ⟨hplain, horderly⟩ := faithful_patchElement h kind fragment target
    unfold patchTargets
    rw [hplain]
    generalize patchElement kind fragment scene target = one at horderly ⊢
    obtain ⟨next, result⟩ := one
    cases result with
    | error cause => exact ⟨rfl, horderly⟩
    | ok first =>
      obtain ⟨hplain', horderly'⟩ := ih horderly
      dsimp only at hplain' ⊢
      rw [hplain']
      generalize patchTargets kind fragment next rest = all at horderly' ⊢
      obtain ⟨last, result⟩ := all
      cases result with
      | error cause => exact ⟨rfl, horderly'⟩
      | ok more => exact ⟨rfl, horderly'⟩

/-! ### Patches -/

theorem faithful_patchElements (h : scene.page.Orderly) (kind : PatchKind) (fragment : Option String)
    (targets : List NodeId) :
    Faithful (patchElements kind fragment scene targets) (patchElements kind fragment scene.unrecorded targets) := by
  obtain ⟨hplain, horderly⟩ := faithful_patchTargets h kind fragment targets
  unfold patchElements
  rw [hplain]
  exact ⟨rfl, horderly⟩

theorem faithful_patch (h : scene.page.Orderly) (kind : PatchKind) (selector : String) (fragment : Option String) :
    Faithful (patch kind selector fragment scene) (patch kind selector fragment scene.unrecorded) := by
  have hquery : Page.query scene.page none selector = Page.query scene.unrecorded.page none selector := rfl
  unfold patch
  rw [hquery]
  split
  · exact ⟨rfl, h⟩
  · exact ⟨rfl, h⟩
  · exact faithful_patchElements h kind fragment _

end PageBindings
