import PageBindings.Proofs.Client.Change
import PageBindings.Proofs.Patch.Likeness

/-!
# Patches and requests do not meet

A patch of a client neither looks at the requests that were sent nor at the notices so far, and changes no request
(`alike_patch`): on a page with other requests it does the same and leaves these.  So its effect on the page depends
on the page alone (`page_patch_congr`), and a patch before or after a request got its response is the same patch.
-/

namespace PageBindings

/-- The page with other requests. -/
def MemoryPage.withExchanges (page : MemoryPage) (exchanges : List Exchange) : MemoryPage :=
  { page with exchanges }

/-- The results are the same, and so are the scenes but for their notices and the requests, now `exchanges`. -/
structure Alike {α : Type} (exchanges : List Exchange) (out out' : Scene MemoryPage × α) : Prop where
  page : out'.1.page = out.1.page.withExchanges exchanges
  result : out'.2 = out.2

variable {exchanges : List Exchange} {scene scene' : Scene MemoryPage}

theorem Alike.exists_eq {α : Type} {out out' : Scene MemoryPage × α} (h : Alike exchanges out out') :
    ∃ next next' result, next'.page = next.page.withExchanges exchanges ∧
      out = (next, result) ∧ out' = (next', result) :=
  ⟨out.1, out'.1, out.2, h.page, rfl, by rw [← h.result]⟩

/-! ### Patching -/

private theorem alike_patch_page (h : scene'.page = scene.page.withExchanges exchanges) (kind : PatchKind)
    (selector : String) (fragment : Option String) :
    Alike exchanges (patch kind selector fragment scene) (patch kind selector fragment scene') := by
  have hresembles : scene.page.Resembles scene'.page := by
    rw [h]
    exact ⟨rfl, rfl, fun _ _ => .rfl⟩
  obtain ⟨hpage, hresult⟩ := matching_patch hresembles kind selector fragment
  -- both patches edit the document alone, and they leave the same one
  obtain ⟨document, handedOut, -, hedited⟩ := edited_patch kind selector fragment scene
  obtain ⟨document', handedOut', -, hedited'⟩ := edited_patch kind selector fragment scene'
  rw [hedited, hedited'] at hpage
  obtain rfl : document' = document := hpage.document
  obtain rfl : handedOut' = handedOut := hpage.handedOut
  refine ⟨?_, hresult⟩
  rw [hedited, hedited', h]
  rfl

namespace Client

/-! ### Binding -/

private theorem alike_foldl_added {α : Type} {f : Scene MemoryPage → α → Scene MemoryPage × Nat}
    (hf : ∀ {scene scene'} x, scene'.page = scene.page.withExchanges exchanges →
      Alike exchanges (f scene x) (f scene' x))
    (h : scene'.page = scene.page.withExchanges exchanges) (xs : List α) (added : Nat) :
    Alike exchanges
      (xs.foldl (fun (scene, added) x =>
        let (scene, more) := f scene x
        (scene, added + more)) (scene, added))
      (xs.foldl (fun (scene, added) x =>
        let (scene, more) := f scene x
        (scene, added + more)) (scene', added)) := by
  induction xs generalizing scene scene' added with
  | nil => exact ⟨h, rfl⟩
  | cons x rest ih =>
    obtain ⟨hpage, hresult⟩ := hf x h
    have hrest := ih hpage (added + (f scene x).2)
    rw [List.foldl_cons, List.foldl_cons]
    dsimp only
    rw [hresult]
    exact hrest

private theorem alike_bindEvent (client : Client MemoryPage) (h : scene'.page = scene.page.withExchanges exchanges)
    (node : NodeId) (view : Option View) (event : String × List Action) :
    Alike exchanges (client.bindEvent node view scene event) (client.bindEvent node view scene' event) := by
  have hmarks : scene'.page.marks = scene.page.marks := by
    rw [h]
    rfl
  have hrefused : scene'.page.refused = scene.page.refused := by
    rw [h]
    rfl
  rcases bindEvent_cases client node view scene event.1 event.2 with ⟨hwhy, hpage, hadded⟩ | ⟨hwhy, hpage, hadded⟩ <;>
    rcases bindEvent_cases client node view scene' event.1 event.2 with
      ⟨hwhy', hpage', hadded'⟩ | ⟨hwhy', hpage', hadded'⟩ <;>
    rw [hmarks, hrefused] at hwhy'
  · exact ⟨by rw [hpage, hpage', h], by rw [hadded, hadded']⟩
  · exact absurd hwhy (not_or.2 hwhy')
  · exact absurd hwhy' (not_or.2 hwhy)
  · refine ⟨?_, by rw [hadded, hadded']⟩
    rw [hpage, hpage', h]
    rfl

private theorem alike_bind (client : Client MemoryPage) (h : scene'.page = scene.page.withExchanges exchanges)
    (node : NodeId) : Alike exchanges (client.bind scene node) (client.bind scene' node) := by
  have hdeclared : scene'.page.declared? client.settings.vocabulary node =
      scene.page.declared? client.settings.vocabulary node := by
    rw [h]
    rfl
  have hview : Page.view? scene'.page client.settings.vocabulary node =
      Page.view? scene.page client.settings.vocabulary node := by
    rw [h]
    rfl
  rw [bind_eq, bind_eq, hdeclared, hview]
  split
  · exact ⟨h, rfl⟩
  · exact ⟨h, rfl⟩
  · rename_i bindings _
    have hevents := alike_foldl_added (fun event h => alike_bindEvent client h node
      (Page.view? scene.page client.settings.vocabulary node) event) h bindings.events 0
    exact ⟨hevents.page, congrArg Except.ok hevents.result⟩

private theorem alike_bindReporting (client : Client MemoryPage)
    (h : scene'.page = scene.page.withExchanges exchanges) (node : NodeId) :
    Alike exchanges (client.bindReporting scene node) (client.bindReporting scene' node) := by
  have hbind := alike_bind client h node
  unfold bindReporting
  generalize client.bind scene node = out at hbind ⊢
  generalize client.bind scene' node = out' at hbind ⊢
  obtain ⟨next, next', result, hpage, rfl, rfl⟩ := hbind.exists_eq
  cases result with
  | error cause => exact ⟨hpage, rfl⟩
  | ok added => exact ⟨hpage, rfl⟩

private theorem alike_declaringElements (h : scene'.page = scene.page.withExchanges exchanges) (marker : String)
    (roots : List NodeId) :
    Alike exchanges (declaringElements marker scene roots) (declaringElements marker scene' roots) := by
  obtain ⟨hpage, hfound⟩ := declaringElements_eq marker scene roots
  obtain ⟨hpage', hfound'⟩ := declaringElements_eq marker scene' roots
  refine ⟨by rw [hpage', hpage, h], ?_⟩
  have houtermost : outermost scene'.page roots = outermost scene.page roots := by
    rw [h]
    rfl
  have hbelow : ∀ root, (declaringBelow marker scene' root).2 = (declaringBelow marker scene root).2 := by
    intro root
    have hquery : Page.query scene'.page (some root) ("[" ++ marker ++ "]") =
        Page.query scene.page (some root) ("[" ++ marker ++ "]") := by
      rw [h]
      rfl
    unfold declaringBelow
    rw [hquery, h]
    cases Page.query scene.page (some root) ("[" ++ marker ++ "]") <;> rfl
  rw [hfound', hfound, houtermost]
  exact congrArg (List.flatMap · _) (funext hbelow)

private theorem alike_scan (client : Client MemoryPage) (h : scene'.page = scene.page.withExchanges exchanges)
    (roots : List NodeId) : Alike exchanges (client.scan scene roots) (client.scan scene' roots) := by
  have hfound := alike_declaringElements h client.settings.vocabulary.events roots
  unfold scan
  generalize declaringElements client.settings.vocabulary.events scene roots = out at hfound ⊢
  generalize declaringElements client.settings.vocabulary.events scene' roots = out' at hfound ⊢
  obtain ⟨next, next', found, hpage, rfl, rfl⟩ := hfound.exists_eq
  exact alike_foldl_added (fun node h => alike_bindReporting client h node) hpage found 0

/-! ### Patches of a client -/

/-- A patch does the same on a page with other requests, and leaves these. -/
theorem alike_patch (client : Client MemoryPage) (h : scene'.page = scene.page.withExchanges exchanges)
    (kind : PatchKind) (selector : String) (fragment : Option String) :
    Alike exchanges (client.patch scene kind selector fragment) (client.patch scene' kind selector fragment) := by
  have hpatch := alike_patch_page h kind selector fragment
  unfold patch
  generalize PageBindings.patch kind selector fragment scene = out at hpatch ⊢
  generalize PageBindings.patch kind selector fragment scene' = out' at hpatch ⊢
  obtain ⟨next, next', result, hpage, rfl, rfl⟩ := hpatch.exists_eq
  cases result with
  | error cause => exact ⟨hpage, rfl⟩
  | ok outcome => exact ⟨(alike_scan client hpage outcome.toBind).page, rfl⟩

/-- A patch leaves all requests as they are. -/
theorem exchanges_patch (client : Client MemoryPage) (scene : Scene MemoryPage) (kind : PatchKind) (selector : String)
    (fragment : Option String) :
    (client.patch scene kind selector fragment).1.page.exchanges = scene.page.exchanges := by
  have hself : scene.page = scene.page.withExchanges scene.page.exchanges := rfl
  have hexchanges := congrArg MemoryPage.exchanges (alike_patch client hself kind selector fragment).page
  exact hexchanges

/-- What a patch does to the page depends on the page alone. -/
theorem page_patch_congr (client : Client MemoryPage) (h : scene'.page = scene.page) (kind : PatchKind)
    (selector : String) (fragment : Option String) :
    (client.patch scene' kind selector fragment).1.page = (client.patch scene kind selector fragment).1.page := by
  have hself : scene'.page = scene.page.withExchanges scene.page.exchanges := h
  rw [(alike_patch client hself kind selector fragment).page, ← exchanges_patch client scene]
  rfl

end Client

end PageBindings
