import PageBindings.Proofs.Client.Exchanges
import PageBindings.Proofs.Client.Grafting
import PageBindings.Proofs.Client.Rebinding

/-!
# Listeners that come later

Where listeners are refused a client binds nothing (`Client.BindsNothing`), but what it makes of the document does not
depend on that.  So of two pages that differ in whether they refuse listeners, the one that does stays behind in what
is bound, and in nothing else (`Client.Behind`, `Behind.updates`).  Once listeners are allowed, a scan of the whole
document makes up for it (`Behind.heals`).
-/

namespace PageBindings

open Relation (ReflTransGen)
open MemoryPage (Capability)

namespace Client

variable {client other : Client MemoryPage} {known page page' last last' : MemoryPage}
  {scene scene' : Scene MemoryPage} {roots : List NodeId}

/-! ### One page -/

/-- With listeners refused nothing is bound beyond what was. -/
structure BindsNothing (known : MemoryPage) (scene : Scene MemoryPage) : Prop where
  marks : scene.page.marks = known.marks
  listeners : scene.page.listeners = known.listeners
  scan (client : Client MemoryPage) (roots : List NodeId) : (client.scan scene roots).2 = 0
  bind (client : Client MemoryPage) (node : NodeId) :
    (client.bind scene node).2 = .ok 0 ∨ ∃ cause, (client.bind scene node).2 = .error cause

theorem snd_scan_of_refused (h : Capability.listener ∈ scene.page.refused) (roots : List NodeId) :
    (client.scan scene roots).2 = 0 := by
  have hlength := length_listeners_scan client scene roots
  rw [page_scan_of_refused h] at hlength
  omega

theorem snd_bind_of_refused (h : Capability.listener ∈ scene.page.refused) (node : NodeId) :
    (client.bind scene node).2 = .ok 0 ∨ ∃ cause, (client.bind scene node).2 = .error cause := by
  have hpage : (client.bind scene node).1.page = scene.page := eq_of_binds_of_refused (binds_bind client scene node) h
  have hlength := length_listeners_bindReporting client scene node
  unfold bindReporting at hlength
  cases hbind : client.bind scene node with
  | mk next result =>
    rw [hbind] at hpage hlength
    cases result with
    | error cause => exact .inr ⟨cause, rfl⟩
    | ok added =>
      dsimp only at hpage hlength
      rw [hpage] at hlength
      obtain rfl : added = 0 := by omega
      exact .inl rfl

theorem bindsNothing_of_refused (h : Capability.listener ∈ scene.page.refused)
    (marks : scene.page.marks = known.marks) (listeners : scene.page.listeners = known.listeners) :
    BindsNothing known scene :=
  ⟨marks, listeners, fun _ roots => snd_scan_of_refused h roots, fun _ node => snd_bind_of_refused h node⟩

/-! ### Pages that look the same -/

theorem resembles_of_binds (h : page.Resembles page') (hb : ReflTransGen client.Binds page last)
    (hb' : ReflTransGen client.Binds page' last') : last.Resembles last' := by
  rw [eq_of_binds hb, eq_of_binds hb']
  exact ⟨h.document, h.handedOut, h.refused⟩

theorem resembles_patch (h : scene.page.Resembles scene'.page) (kind : PatchKind) (selector : String)
    (fragment : Option String) : (client.patch scene kind selector fragment).1.page.Resembles
      (client.patch scene' kind selector fragment).1.page := by
  have hpatch := matching_patch h kind selector fragment
  unfold patch
  generalize PageBindings.patch kind selector fragment scene = out at hpatch ⊢
  generalize PageBindings.patch kind selector fragment scene' = out' at hpatch ⊢
  obtain ⟨next, next', result, hpage, rfl, rfl⟩ := hpatch.exists_eq
  cases result with
  | error cause => exact hpage
  | ok outcome => exact resembles_of_binds hpage (binds_scan client next _) (binds_scan client next' _)

theorem resembles_complete (h : scene.page.Resembles scene'.page) (errand : Errand) (outcome : Outcome) :
    (client.complete scene errand outcome).page.Resembles (client.complete scene' errand outcome).page := by
  unfold complete
  split
  · exact h
  · split
    · rw [page_patchReporting, page_patchReporting]
      exact resembles_patch h _ _ _
    · exact h

theorem resembles_swapPushed (h : scene.page.Resembles scene'.page) (html : String) :
    (client.swapPushed scene html).1.page.Resembles (client.swapPushed scene' html).1.page := by
  have hcreate := h.create html
  unfold swapPushed
  dsimp only
  generalize Page.create scene.page html = made at hcreate ⊢
  generalize Page.create scene'.page html = made' at hcreate ⊢
  cases hcreate with
  | error cause => exact h
  | @ok made made' hmade =>
    obtain ⟨element, page⟩ := made
    obtain ⟨element', page'⟩ := made'
    obtain ⟨rfl, hpage⟩ := hmade
    cases element' with
    | none => exact hpage
    | some e =>
      dsimp only at hpage ⊢
      rw [hpage.attribute?]
      split
      · exact hpage
      · rw [hpage.query]
        split
        · exact hpage
        · exact hpage
        · rename_i target _ _
          have hinsert := hpage.insertElement .swap target e
          generalize insertElement .swap page target e = result at hinsert ⊢
          generalize insertElement .swap page' target e = result' at hinsert ⊢
          cases hinsert with
          | error cause => exact hpage
          | @ok next next' hnext =>
            dsimp only [bindInserted]
            exact resembles_of_binds hnext (binds_scan client { scene with page := next } _)
              (binds_scan client { scene' with page := next' } _)

/-! ### Staying behind -/

/--
The first page refuses listeners, with nothing bound beyond what is known.  The second one allows listeners, and what
else is bound there is declared on both.  To a patch they look the same, and requests and streams are the same.
-/
structure Behind (client : Client MemoryPage) (known page page' : MemoryPage) : Prop where
  forest : page.document.Forest
  marks : page.marks = known.marks
  listeners : page.listeners = known.listeners
  refuses : Capability.listener ∈ page.refused
  allows : Capability.listener ∉ page'.refused
  exists_added : ∃ added, client.Adds page added page'
  resembles : page.Resembles page'
  exchanges : page'.exchanges = page.exchanges
  streams : page'.streams = page.streams

namespace Behind

theorem bindsNothing (h : client.Behind known scene.page page') : BindsNothing known scene :=
  bindsNothing_of_refused h.refuses h.marks h.listeners

/-- Of a client only its number and its settings matter. -/
theorem congr (h : client.Behind known page page') (href : other.ref = client.ref)
    (hsettings : other.settings = client.settings) : other.Behind known page page' := by
  obtain ⟨added, hadded⟩ := h.exists_added
  refine { h with exists_added := ⟨added, { hadded with declares := fun listener hmem => ?_ }⟩ }
  obtain ⟨howner, hview, hactions⟩ := hadded.declares listener hmem
  exact ⟨howner.trans href.symm, by rw [hsettings]; exact hview, by rw [hsettings]; exact hactions⟩

/-- The same requests and streams on both pages make no difference, and neither do streams that were closed. -/
theorem withOthers (h : client.Behind known page page') {exchanges exchanges' : List Exchange}
    {streams streams' : List MemoryPage.Stream} (hexchanges : exchanges' = exchanges) (hstreams : streams' = streams)
    (closed closed' : List StreamRef) :
    client.Behind known { page with exchanges, streams, closed }
      { page' with exchanges := exchanges', streams := streams', closed := closed' } := by
  obtain ⟨added, hadded⟩ := h.exists_added
  have hall : client.Adds { page with exchanges, streams, closed } added
      { page' with exchanges := exchanges', streams := streams', closed := closed' } :=
    hadded.of_keeps (Document.Keeps.refl _) rfl rfl rfl rfl
  exact ⟨h.forest, h.marks, h.listeners, h.refuses, h.allows, ⟨added, hall⟩,
    ⟨h.resembles.document, h.resembles.handedOut, h.resembles.refused⟩, hexchanges, hstreams⟩

/-- Doing the same on both pages, the first one stays behind. -/
theorem updates (h : client.Behind known page page') (hu : client.Updates page last)
    (hu' : client.Updates page' last') (hlast : last.Resembles last') : client.Behind known last last' := by
  obtain ⟨hexchanges, hstreams⟩ := hu.others
  obtain ⟨hexchanges', hstreams'⟩ := hu'.others
  obtain ⟨edited, hedited, hb⟩ := hu
  obtain ⟨edited', hedited', hb'⟩ := hu'
  -- where listeners are refused all there is to it is the edit
  obtain rfl : last = edited := eq_of_binds_of_refused hb (hedited.refused ▸ h.refuses)
  obtain ⟨added, hadded⟩ := h.exists_added
  obtain ⟨more, hmore⟩ := exists_bound hb'
  have hdocument : edited'.document = last.document := by rw [← hlast.document, document_of_binds hb']
  have hbefore : client.Adds last added edited' :=
    hadded.of_keeps hedited.grows.toKeeps hedited.marks hedited.listeners hedited'.marks hedited'.listeners
  have hrefused' : last'.refused = page'.refused := by rw [refused_of_binds hb', hedited'.refused]
  exact {
    forest := hedited.grows.forest h.forest
    marks := hedited.marks.trans h.marks
    listeners := hedited.listeners.trans h.listeners
    refuses := hedited.refused ▸ h.refuses
    allows := hrefused' ▸ h.allows
    exists_added := ⟨added ++ more, hbefore.trans hmore hdocument⟩
    resembles := hlast
    exchanges := by rw [hexchanges, hexchanges', h.exchanges]
    streams := by rw [hstreams, hstreams', h.streams] }

end Behind

/-! ### Making up for it -/

/-- The pages have the same document, with the same marks and listeners on all its elements. -/
structure SameBindings (page page' : MemoryPage) : Prop where
  document : page'.document = page.document
  marks {n : NodeId} (hn : n ≠ Document.root) (attached : Page.isConnected page n = true) (eventType : String) :
    (n, eventType) ∈ page'.marks ↔ (n, eventType) ∈ page.marks
  listeners {n : NodeId} (hn : n ≠ Document.root) (attached : Page.isConnected page n = true) (eventType : String) :
    page'.listenersOf n eventType = page.listenersOf n eventType

/-- The page after listeners were allowed and a client has scanned all that is directly below the document node. -/
def healed (client : Client MemoryPage) (page : MemoryPage) : MemoryPage :=
  let page := page.setRefused .listener false
  (client.scan { page } (page.document.children Document.root)).1.page

theorem binds_healed (client : Client MemoryPage) (page : MemoryPage) :
    ReflTransGen client.Binds (page.setRefused .listener false) (client.healed page) :=
  binds_scan client { page := page.setRefused .listener false } _

theorem Declares.announces {listener : Listener} (h : client.Declares page listener) :
    page.Announces client.settings.vocabulary listener.node listener.eventType := by
  obtain ⟨bindings, hdeclared, hactions⟩ := h.actions
  exact ⟨bindings, hdeclared, Bindings.mem_of_actions? hactions⟩

/-- A scan of all that is directly below the document node marks what is declared in the document. -/
theorem mem_marks_scan_tops (hf : scene.page.document.Forest)
    (hnames : ∀ c ∈ client.settings.vocabulary.events.toList, Selector.isNameChar c = true)
    (allowed : Capability.listener ∉ scene.page.refused) {n : NodeId} (hn : n ≠ Document.root)
    (attached : Page.isConnected scene.page n = true) (eventType : String) :
    (n, eventType) ∈ (client.scan scene (scene.page.document.children Document.root)).1.page.marks ↔
      (n, eventType) ∈ scene.page.marks ∨ scene.page.Announces client.settings.vocabulary n eventType := by
  rw [mem_marks_scan, mem_declaringElements_iff hf hnames]
  refine or_congr_right ⟨fun h => h.2.2, fun hannounces => ⟨allowed, ⟨hannounces.hasAttribute, ?_⟩, hannounces⟩⟩
  rcases Relation.ReflTransGen.cases_tail (hf.isAttached_iff.1 attached) with hroot | ⟨top, hbelow, htop⟩
  · exact absurd hroot.symm hn
  · exact ⟨top, hf.mem_children_iff.2 htop, hbelow⟩

/-- What was bound ahead of a scan of the whole document would have been bound by it. -/
private theorem sameBindings_scan (scene scene' : Scene MemoryPage) {added : List Listener}
    (hadded : client.Adds scene.page added scene'.page) (hdocument : scene'.page.document = scene.page.document)
    (hf : scene.page.document.Forest)
    (hnames : ∀ c ∈ client.settings.vocabulary.events.toList, Selector.isNameChar c = true)
    (allowed : Capability.listener ∉ scene.page.refused) (allowed' : Capability.listener ∉ scene'.page.refused) :
    SameBindings (client.scan scene (scene.page.document.children Document.root)).1.page
      (client.scan scene' (scene'.page.document.children Document.root)).1.page := by
  have hb := binds_scan client scene (scene.page.document.children Document.root)
  have hb' := binds_scan client scene' (scene'.page.document.children Document.root)
  have hdocuments := (document_of_binds hb').trans (hdocument.trans (document_of_binds hb).symm)
  have hmarks : ∀ n ≠ Document.root,
      Page.isConnected (client.scan scene (scene.page.document.children Document.root)).1.page n = true →
      ∀ eventType, (n, eventType) ∈
          (client.scan scene' (scene'.page.document.children Document.root)).1.page.marks ↔
        (n, eventType) ∈ (client.scan scene (scene.page.document.children Document.root)).1.page.marks := by
    intro n hn attached eventType
    have hattached : Page.isConnected scene.page n = true := by
      rw [← attached]
      exact congrArg (Document.isAttached · n) (document_of_binds hb).symm
    have hattached' : Page.isConnected scene'.page n = true := by
      rw [← hattached]
      exact congrArg (Document.isAttached · n) hdocument
    have hannounces := MemoryPage.announces_congr (congrArg (Document.bare? · n) hdocument)
      client.settings.vocabulary eventType
    rw [mem_marks_scan_tops hf hnames allowed hn hattached,
      mem_marks_scan_tops (hdocument ▸ hf) hnames allowed' hn hattached', hadded.mem_marks_iff, hannounces, or_assoc]
    refine or_congr_right (or_iff_right_of_imp fun hmark => ?_)
    obtain ⟨listener, hmem, hat⟩ := List.mem_map.1 hmark
    obtain ⟨rfl, rfl⟩ := Prod.mk.inj hat
    exact (hadded.declares listener hmem).announces
  refine ⟨hdocuments, fun hn attached => hmarks _ hn attached, fun hn attached eventType => ?_⟩
  obtain ⟨own, hown⟩ := exists_bound hb
  obtain ⟨more, hmore⟩ := exists_bound hb'
  have hall := hadded.trans hmore hdocument
  exact hall.listenersOf_eq hown .rfl rfl (hmarks _ hn attached eventType) fun _ _ => .rfl

/-- A page that stayed behind catches up as soon as listeners are allowed and the document is scanned. -/
theorem Behind.heals (h : client.Behind known page page')
    (hnames : ∀ c ∈ client.settings.vocabulary.events.toList, Selector.isNameChar c = true) :
    SameBindings (client.healed page) (client.healed page') := by
  have hallowed : ∀ page : MemoryPage, Capability.listener ∉ (page.setRefused .listener false).refused := by
    intro page
    simp [MemoryPage.setRefused]
  obtain ⟨added, hadded⟩ := h.exists_added
  have hstart : client.Adds (page.setRefused .listener false) added (page'.setRefused .listener false) :=
    hadded.of_keeps (Document.Keeps.refl _) rfl rfl rfl rfl
  exact sameBindings_scan { page := page.setRefused .listener false } { page := page'.setRefused .listener false }
    hstart h.resembles.document h.forest hnames (hallowed page) (hallowed page')

end Client

end PageBindings
