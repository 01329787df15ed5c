import PageBindings.Proofs.Client.Commuting
import PageBindings.Proofs.Page.Views

/-!
# Patches that fail

A patch is made on its targets one after the other, and it finds out on the way that there is nothing to put in.
Still a patch that fails has changed nothing, and when one fails is known beforehand, from the selector, the elements
of the document and the fragment (`MemoryPage.Unpatchable`, `failed_patch_changes_nothing`): only the first target
that is reached can lack content, and the first target of all is reached, since it was found in the document.
-/

namespace PageBindings

variable {scene : Scene MemoryPage} {page : MemoryPage} {kind : PatchKind} {selector : String}
    {fragment : Option String}

namespace MemoryPage

/-- What keeps a patch from being made on a page that refuses nothing. -/
inductive Unpatchable (page : MemoryPage) (kind : PatchKind) (selector : String) (fragment : Option String) : Prop
  | unreadable (invalid : Selector.parse? selector = none)
  | unmatched (missed : ∀ node, node ≠ Document.root → Page.isConnected page node = true →
      ¬ page.document.Matches selector node)
  | lacking (creates : kind.creates = true) (empty : ∀ html, fragment = some html → Markup.hasElement html = false)

theorem exists_obstacle?_iff :
    (∃ cause, obstacle? page.refused kind fragment = some cause) ↔
      kind.creates = true ∧ page.LacksContent fragment := by
  constructor
  · rintro ⟨cause, h⟩
    unfold obstacle? at h
    split at h
    · rename_i creates
      refine ⟨creates, fun html hhtml => ?_⟩
      subst hhtml
      by_cases hrefused : Capability.create ∈ page.refused
      · exact .inl hrefused
      · have hempty : ¬ Markup.hasElement html = true := by
          intro has
          simp [hrefused, has] at h
        exact .inr (by simpa using hempty)
    · simp at h
  · rintro ⟨creates, lacks⟩
    cases hobstacle : obstacle? page.refused kind fragment with
    | some cause => exact ⟨cause, rfl⟩
    | none =>
      obtain ⟨html, hhtml, hallowed, has⟩ := exists_html_of_obstacle? creates hobstacle
      rcases lacks html hhtml with hrefused | hempty
      · exact absurd hrefused hallowed
      · rw [has] at hempty
        exact absurd hempty (by decide)

/-- Where new elements may be made only the fragment can lack content. -/
theorem lacksContent_iff (hallowed : Capability.create ∉ page.refused) :
    page.LacksContent fragment ↔ ∀ html, fragment = some html → Markup.hasElement html = false := by
  unfold LacksContent
  refine forall_congr' fun html => imp_congr_right fun _ => ?_
  exact ⟨fun h => h.resolve_left hallowed, fun h => .inr h⟩

theorem Lists.unpatchable {conditions : Selector} (readable : Selector.parse? selector = some conditions)
    (nothing : page.Lists (fun node => page.document.isMatch conditions node = true) []) :
    page.Unpatchable kind selector fragment := by
  refine .unmatched fun node hroot hconnected hmatches => ?_
  obtain ⟨conditions', hparse, hmatch⟩ := hmatches
  obtain rfl := Option.some.inj (readable.symm.trans (Option.mem_def.1 hparse))
  exact absurd ((nothing.mem_iff node).2 ⟨hroot, hconnected, hmatch⟩) List.not_mem_nil

end MemoryPage

/-- A patch fails for want of a selector that can be read, of an element that matches it, or of content. -/
theorem unpatchable_of_error (hf : scene.page.document.Forest)
    (hallowed : MemoryPage.Capability.create ∉ scene.page.refused) {cause : PatchError}
    (h : (patch kind selector fragment scene).2 = .error cause) :
    scene.page.Unpatchable kind selector fragment := by
  cases patch_sought hf kind selector fragment with
  | unreadable invalid => exact .unreadable invalid
  | unmatched readable nothing => exact nothing.unpatchable readable
  | @found _ target rest _ _ _ made =>
    rw [made] at h
    unfold patchElements at h
    cases htargets : patchTargets kind fragment scene (target :: rest) with
    | mk last result =>
      rw [htargets] at h
      cases result with
      | error cause' =>
        obtain ⟨creates, lacks⟩ := patchTargets_of_error htargets
        exact .lacking creates ((MemoryPage.lacksContent_iff hallowed).1 lacks)
      | ok inserted => simp [Except.map] at h

theorem MemoryPage.Unpatchable.exists_error (h : scene.page.Unpatchable kind selector fragment)
    (hf : scene.page.document.Forest) : ∃ cause, (patch kind selector fragment scene).2 = .error cause := by
  cases patch_sought hf kind selector fragment with
  | unreadable _ failed => exact ⟨_, congrArg Prod.snd failed⟩
  | unmatched _ _ failed => exact ⟨_, congrArg Prod.snd failed⟩
  | @found conditions target _ readable lists query _ =>
    cases h with
    | unreadable invalid => simp [readable] at invalid
    | unmatched missed =>
      obtain ⟨hroot, hconnected, hmatch⟩ := (lists.mem_iff target).1 List.mem_cons_self
      exact absurd ⟨conditions, readable, hmatch⟩ (missed target hroot hconnected)
    | lacking creates empty =>
      have lacks : scene.page.LacksContent fragment := fun html hhtml => .inr (empty html hhtml)
      obtain ⟨cause, hobstacle⟩ := MemoryPage.exists_obstacle?_iff.2 ⟨creates, lacks⟩
      exact ⟨cause, patch_of_obstacle? (lists.isAttached List.mem_cons_self) query hobstacle⟩

namespace MemoryPage

theorem Unpatchable.lacking_of_query {target : NodeId} {rest : List NodeId}
    (h : page.Unpatchable kind selector fragment) (hf : page.document.Forest)
    (hquery : Page.query page none selector = .ok (target :: rest)) :
    kind.creates = true ∧ ∀ html, fragment = some html → Markup.hasElement html = false := by
  cases hparse : Selector.parse? selector with
  | none =>
    obtain ⟨cause, herror⟩ := exists_error_of_parse? hparse page
    simp [herror] at hquery
  | some conditions =>
    obtain ⟨found, hfound, lists⟩ := page.lists_query hf hparse
    obtain rfl := Except.ok.inj (hquery.symm.trans hfound)
    cases h with
    | unreadable invalid => simp [hparse] at invalid
    | unmatched missed =>
      obtain ⟨hroot, hconnected, hmatch⟩ := (lists.mem_iff target).1 List.mem_cons_self
      exact absurd ⟨conditions, hparse, hmatch⟩ (missed target hroot hconnected)
    | lacking creates empty => exact ⟨creates, empty⟩

theorem exists_query_of_patchable (hf : page.document.Forest) (hallowed : page.refused = [])
    (h : ¬ page.Unpatchable kind selector fragment) :
    ∃ conditions target rest, Selector.parse? selector = some conditions ∧
      page.Lists (fun node => page.document.isMatch conditions node = true) (target :: rest) ∧
      Page.query page none selector = .ok (target :: rest) ∧ obstacle? [] kind fragment = none := by
  cases hparse : Selector.parse? selector with
  | none => exact absurd (.unreadable hparse) h
  | some conditions =>
    obtain ⟨found, hfound, lists⟩ := page.lists_query hf hparse
    cases found with
    | nil => exact absurd (lists.unpatchable hparse) h
    | cons target rest =>
      refine ⟨conditions, target, rest, rfl, lists, hfound, ?_⟩
      cases hobstacle : obstacle? [] kind fragment with
      | none => rfl
      | some cause =>
        obtain ⟨creates, lacks⟩ := exists_obstacle?_iff.1 ⟨cause, hallowed.symm ▸ hobstacle⟩
        exact absurd (.lacking creates ((lacksContent_iff (by simp [hallowed])).1 lacks)) h

end MemoryPage

/--
A patch that fails leaves the page exactly as it was, whatever the page refuses.  Where new elements may be made it
fails exactly if the selector cannot be read or matches no element of the document, or there is nothing to put in.
-/
theorem failed_patch_changes_nothing (client : Client MemoryPage) (scene : Scene MemoryPage) (kind : PatchKind)
    (selector : String) (fragment : Option String) (hf : scene.page.document.Forest) :
    (∀ cause, (patch kind selector fragment scene).2 = .error cause →
      (patch kind selector fragment scene).1.page = scene.page) ∧
    (∀ cause, (client.patch scene kind selector fragment).2 = .error cause →
      (client.patch scene kind selector fragment).1.page = scene.page) ∧
    (MemoryPage.Capability.create ∉ scene.page.refused →
      ((∃ cause, (patch kind selector fragment scene).2 = .error cause) ↔
        scene.page.Unpatchable kind selector fragment) ∧
      ((∃ cause, (client.patch scene kind selector fragment).2 = .error cause) ↔
        scene.page.Unpatchable kind selector fragment)) := by
  refine ⟨fun cause h => page_patch_of_error (Prod.ext rfl h), fun cause h => Client.page_patch_eq_of_error h,
    fun hallowed => ?_⟩
  have hiff : (∃ cause, (patch kind selector fragment scene).2 = .error cause) ↔
      scene.page.Unpatchable kind selector fragment := by
    constructor
    · rintro ⟨cause, h⟩
      exact unpatchable_of_error hf hallowed h
    · intro h
      exact h.exists_error hf
  refine ⟨hiff, ?_⟩
  rw [client.snd_patch]
  exact hiff

/-- A list of which no item may be replaced. -/
def fixedList : Scene MemoryPage :=
  { page := { MemoryPage.withBody "<ul><li>1</li></ul>" with refused := [.replace] } }

theorem failed_patch_changes_nothing_fixedList :
    fixedList.page.Unpatchable .append "li" (some "2</li> and </ul>") ∧
      (∃ cause, (plainClient.patch fixedList .append "li" (some "2</li> and </ul>")).2 = .error cause) ∧
      (plainClient.patch fixedList .append "li" (some "2</li> and </ul>")).1.page = fixedList.page := by
  have hforest : fixedList.page.document.Forest := Document.forest_withBody "<ul><li>1</li></ul>"
  have hallowed : MemoryPage.Capability.create ∉ fixedList.page.refused := by decide
  have hempty : Markup.hasElement "2</li> and </ul>" = false := by decide +kernel
  have hlacks : fixedList.page.Unpatchable .append "li" (some "2</li> and </ul>") :=
    .lacking rfl fun html hhtml => Option.some.inj hhtml ▸ hempty
  obtain ⟨-, hunchanged, hfails⟩ :=
    failed_patch_changes_nothing plainClient fixedList .append "li" (some "2</li> and </ul>") hforest
  obtain ⟨cause, herror⟩ := (hfails hallowed).2.2 hlacks
  exact ⟨hlacks, ⟨cause, herror⟩, hunchanged cause herror⟩

end PageBindings
