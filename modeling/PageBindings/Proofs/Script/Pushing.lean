import PageBindings.Proofs.Client.Delivery
import PageBindings.Proofs.Script.Rebinding

/-!
# What a pushed fragment does

In a reachable world a pushed fragment takes the place of the first element that has the view id of its own first
element (`PushLaw.renews`), exactly if there are such elements and the page lets new elements be made and put in
(`PushLaw.succeeds_iff`).  It is bound like all new content, and not at all by a page that refuses listeners.  A push
that fails leaves the document as it was, down to each node, and no push moves a channel (`PushLaw.fails`,
`PushLaw.message`).
-/

namespace PageBindings.Script

variable {world : World MemoryPage} {client : Client MemoryPage} {page page' : MemoryPage} {html : String}

/-- A new element that is like the first one of the markup has taken the place of another one, and is bound. -/
structure Renewed (client : Client MemoryPage) (page page' : MemoryPage) (html : String) (target element : NodeId) :
    Prop where
  remade : page.document.Remade .swap [target] (fun _ => element) page'.document
  parent? {n : NodeId} (hn : n < page.document.size) :
    page'.document.parent? n = if n = target then none else page.document.parent? n
  connected {n : NodeId} (hn : n < page.document.size) :
    Page.isConnected page' n = true ↔ Page.isConnected page n = true ∧ ¬ page.document.Above target n
  sprouted : page.document.Sprouted page'.document html element
  rebound : client.Rebound page page' [element]
  rest : ∃ document handedOut marks listeners, page' = { page with document, handedOut, marks, listeners }

/-- What comes of pushing a fragment to a client. -/
structure PushLaw (world : World MemoryPage) (client : Client MemoryPage) (html : String) : Prop where
  succeeds_iff : (∃ outcome, (client.swapPushed world.toScene html).2 = .ok outcome) ↔
    (∃ id, Markup.viewId? client.settings.vocabulary html = some id ∧
      ∃ node, node ≠ Document.root ∧ Page.isConnected world.page node = true ∧
        Page.attribute? world.page node client.settings.vocabulary.viewId = some id) ∧
    .create ∉ world.page.refused ∧ .replace ∉ world.page.refused
  renews {outcome : PatchOutcome} (h : (client.swapPushed world.toScene html).2 = .ok outcome) :
    ∃ id target rest element, Markup.viewId? client.settings.vocabulary html = some id ∧
      world.page.Lists (fun node => Page.attribute? world.page node client.settings.vocabulary.viewId = some id)
        (target :: rest) ∧
      outcome = { kind := .swap, inserted := [element] } ∧
      Renewed client world.page (client.swapPushed world.toScene html).1.page html target element
  fails {cause : PatchError} (h : (client.swapPushed world.toScene html).2 = .error cause) :
    world.page.Untouched (client.swapPushed world.toScene html).1.page
  channels : ((ClientStep.swapPushed html).perform world client).1.clients = world.clients
  /-- A message of the stream does what the fragment in it does, and leaves all channels as they are. -/
  message {ref : ClientRef} {data : String} (live : world.client? ref = some client)
    (fragment : StreamMessage.ofData client.settings data = .fragment html) :
    (world.hear ref (.message data)).clients = world.clients ∧
      (world.hear ref (.message data)).page =
        if client.channel.state = .closed then world.page else (client.swapPushed world.toScene html).1.page

/-- What was put in and scanned has renewed its target. -/
private theorem renewed_scan {scene next : Scene MemoryPage} {id : String} {target element : NodeId}
    {rest : List NodeId} (h : client.Placed scene html id target rest element next)
    (hf : scene.page.document.Forest) (hs : scene.page.Seated)
    (hnames : ∀ c ∈ client.settings.vocabulary.events.toList, Selector.isNameChar c = true) :
    Renewed client scene.page (client.scan next [element]).1.page html target element := by
  have hremade := h.remade hf
  have hf' := hremade.forest hf
  have hsprouted := h.sprouted hf
  have hb := client.binds_scan next [element]
  have hdocument := Client.document_of_binds hb
  have hroot : Document.root ∉ [target] := fun hmem => (h.target_mem hf).2.1 (List.mem_singleton.1 hmem).symm
  refine ⟨?_, fun hn => ?_, fun hn => ?_, ?_, ?_, ?_⟩
  · rw [hdocument]
    exact hremade
  · rw [hdocument, hremade.parent?_eq hf hn]
    simp [PatchKind.clears]
  · show (client.scan next [element]).1.page.document.isAttached _ = true ↔
      scene.page.document.isAttached _ = true ∧ _
    rw [hdocument, hf'.isAttached_iff, hf.isAttached_iff, hremade.attached_iff hf hroot hn]
    simp [PatchKind.clears]
  · rw [hdocument]
    exact hsprouted
  · refine Client.rebound_scan hf' hs (h.edited hf) hnames fun e he n hn => ?_
    rw [List.mem_singleton.1 he] at hn
    exact hsprouted.new hn
  · obtain ⟨document, handedOut, -, hpage⟩ := h.page
    have hbound := Client.eq_of_binds hb
    rw [hpage] at hbound
    exact ⟨document, handedOut, _, _, hbound⟩

/--
A pushed fragment renews the first element with its view id and nothing else.  Where it cannot, it changes nothing
that can be seen.
-/
theorem push_renews_first (h : Reachable world) (forest : world.page.document.Forest) (client : Client MemoryPage)
    (viewIdChars : ∀ c ∈ client.settings.vocabulary.viewId.toList, Selector.isNameChar c = true)
    (eventsChars : ∀ c ∈ client.settings.vocabulary.events.toList, Selector.isNameChar c = true) (html : String) :
    PushLaw world client html := by
  have hlists : ∀ id, ∃ found,
      Page.query world.page none (Selector.forAttribute client.settings.vocabulary.viewId id) = .ok found ∧
      world.page.Lists (fun node => Page.attribute? world.page node client.settings.vocabulary.viewId = some id)
        found :=
    fun id => view_selector_finds forest viewIdChars ⟨id, none, none⟩
  refine ⟨?_, fun {outcome} hok => ?_, fun herror => (Client.untouched_of_error forest herror).1, ?_,
    fun {ref data} live fragment => ?_⟩
  · rw [Client.exists_swapPushed_eq_ok_iff forest, Client.pushObstacle?_eq_none_iff]
    constructor
    · rintro ⟨hcreatable, hreplaceable, id, target, rest, hid, hquery⟩
      obtain ⟨found, hfound, hlist⟩ := hlists id
      obtain rfl := Except.ok.inj (hquery.symm.trans hfound)
      exact ⟨⟨id, hid, target, (hlist.mem_iff target).1 List.mem_cons_self⟩, hcreatable, hreplaceable⟩
    · rintro ⟨⟨id, hid, node, hnode⟩, hcreatable, hreplaceable⟩
      obtain ⟨found, hfound, hlist⟩ := hlists id
      have hmem := (hlist.mem_iff node).2 hnode
      cases found with
      | nil => exact absurd hmem List.not_mem_nil
      | cons target rest => exact ⟨hcreatable, hreplaceable, id, target, rest, hid, hfound⟩
  · have hclear := (Client.exists_swapPushed_eq_ok_iff forest).1 ⟨outcome, hok⟩
    obtain ⟨id, target, rest, element, next, hplaced, heq⟩ := Client.swapPushed_of_clear forest hclear
    obtain ⟨found, hfound, hlist⟩ := hlists id
    obtain rfl := Except.ok.inj (hplaced.query.symm.trans hfound)
    rw [heq] at hok
    refine ⟨id, target, rest, element, hplaced.viewId, hlist, (Except.ok.inj hok).symm, ?_⟩
    rw [heq]
    dsimp only
    exact renewed_scan hplaced forest h.seated eventsChars
  · rw [ClientStep.fst_swapPushed]
    rfl
  · unfold World.hear
    rw [live]
    dsimp only
    split
    · exact ⟨rfl, rfl⟩
    · unfold World.receive
      rw [fragment]
      dsimp only
      split
      · rename_i heq
        rw [heq]
        exact ⟨rfl, rfl⟩
      · rename_i heq
        rw [heq]
        exact ⟨rfl, rfl⟩

/-- A view with another one of the same id in it and a third one after it. -/
def repeatedView : World MemoryPage :=
  (MemorySession.begin "<p silta-view-id='v'><q silta-view-id='v'></q></p><b silta-view-id='v'></b>" {} []).world

/-- A new state of the view, with a binding. -/
def eventfulView : String :=
  "<p silta-view-id='v' silta-events='" ++ clickDeclaration ++ "'></p>"

theorem push_renews_first_repeatedView :
    Renewed plainClient repeatedView.page
      (plainClient.swapPushed repeatedView.toScene eventfulView).1.page eventfulView 2 5 := by
  have hreachable : Reachable repeatedView := MemorySession.reachable _ _ _ []
  have hforest : repeatedView.page.document.Forest := MemorySession.forest_begin _ _ _
  have hchars : plainClient.settings.vocabulary.viewId.toList.all Selector.isNameChar = true ∧
      plainClient.settings.vocabulary.events.toList.all Selector.isNameChar = true := by decide +kernel
  have hlaw := push_renews_first hreachable hforest plainClient (List.all_eq_true.1 hchars.1)
    (List.all_eq_true.1 hchars.2) eventfulView
  have hfacts : (plainClient.swapPushed repeatedView.toScene eventfulView).2 =
      .ok { kind := .swap, inserted := [5] } ∧
      (plainClient.swapPushed repeatedView.toScene eventfulView).1.page.document.parent? 2 = none ∧
      repeatedView.page.document.parent? 2 = some 1 ∧ 2 < repeatedView.page.document.size := by decide +kernel
  obtain ⟨hok, hout, hin, hsize⟩ := hfacts
  obtain ⟨id, target, rest, element, -, -, houtcome, hrenewed⟩ := hlaw.renews hok
  obtain rfl : 5 = element := List.head_eq_of_cons_eq (congrArg PatchOutcome.inserted houtcome)
  -- the view that has gone is the target
  have htarget := hrenewed.parent? hsize
  rw [hout, hin] at htarget
  by_cases heq : 2 = target
  · exact heq ▸ hrenewed
  · simp [heq] at htarget

/-- A page with the view on which no listener may be added. -/
def silentView : World MemoryPage :=
  ((MemorySession.begin "<p silta-view-id='v'></p>" {} []).after [.refuse .listener true]).world

/-- Where listeners are refused the view is renewed all the same, and is not bound. -/
theorem push_renews_first_silentView :
    Reachable silentView ∧ silentView.page.document.Forest ∧
      (∀ c ∈ plainClient.settings.vocabulary.viewId.toList, Selector.isNameChar c = true) ∧
      (∀ c ∈ plainClient.settings.vocabulary.events.toList, Selector.isNameChar c = true) ∧
      .create ∉ silentView.page.refused ∧ .replace ∉ silentView.page.refused ∧
      (plainClient.swapPushed silentView.toScene eventfulView).2 = .ok { kind := .swap, inserted := [3] } ∧
      ¬ plainClient.Serves (plainClient.swapPushed silentView.toScene eventfulView).1.page 3 := by
  have hforest : silentView.page.document.Forest := MemorySession.forest_begin "<p silta-view-id='v'></p>" {} []
  have hchars : plainClient.settings.vocabulary.viewId.toList.all Selector.isNameChar = true ∧
      plainClient.settings.vocabulary.events.toList.all Selector.isNameChar = true := by decide +kernel
  have hfacts : .create ∉ silentView.page.refused ∧ .replace ∉ silentView.page.refused ∧
      (plainClient.swapPushed silentView.toScene eventfulView).2 = .ok { kind := .swap, inserted := [3] } ∧
      (plainClient.swapPushed silentView.toScene eventfulView).1.page.document.attribute? 3
        plainClient.settings.vocabulary.events = some clickDeclaration ∧
      ((plainClient.swapPushed silentView.toScene eventfulView).1.page.listenersOf 3 "click").length = 0 := by
    decide +kernel
  obtain ⟨hcreatable, hreplaceable, hok, hwritten, hnone⟩ := hfacts
  refine ⟨MemorySession.reachable _ _ _ _, hforest, List.all_eq_true.1 hchars.1, List.all_eq_true.1 hchars.2,
    hcreatable, hreplaceable, hok, fun hserves => ?_⟩
  obtain ⟨bindings, hread, hclick⟩ := exists_parse_clickDeclaration
  obtain ⟨listener, hlistener, -⟩ := hserves.declared hwritten hread hclick
  rw [hlistener] at hnone
  simp at hnone

end PageBindings.Script
