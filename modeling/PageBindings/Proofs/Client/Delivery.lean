import PageBindings.Proofs.Client.Pushing
import PageBindings.Proofs.Patch.Remaking

/-!
# How a push ends

A push makes its element first and finds out then whether there is a place for it.  What may keep it from being put in
is known beforehand (`Client.pushObstacle?`), and is the error of the push (`swapPushed_of_obstacle?`).  Where nothing
is in the way the element takes the place of the first one with its view id (`Client.Placed`, `swapPushed_of_clear`),
and of the old nodes only the parent of that one has other children than before (`Placed.remade`).
-/

namespace PageBindings

variable {client : Client MemoryPage} {page : MemoryPage} {scene next : Scene MemoryPage} {html id : String}
  {e n target : NodeId} {rest : List NodeId}

namespace MemoryPage

/-- What was there is as it was.  There may be more nodes, but they are not part of the document. -/
structure Untouched (page page' : MemoryPage) : Prop where
  rest : ∃ document handedOut, page' = { page with document, handedOut }
  node? {n : NodeId} (hn : n < page.document.size) : page'.document.node? n = page.document.node? n
  tree {α : Type} (label : NodeId → α) :
    page'.document.tree label Document.root = page.document.tree label Document.root

end MemoryPage

theorem Markup.hasElement_of_head? {d : Document} (h : (d.read html).2.head? = some e) :
    Markup.hasElement html = true := by
  rw [← Bool.not_eq_false, ← Document.read_eq_nil_iff d]
  intro hnil
  simp [hnil] at h

theorem Markup.attribute?_read {d : Document} (hf : d.Forest) (he : (d.read html).2.head? = some e)
    (names : Vocabulary) : (d.read html).1.attribute? e names.viewId = Markup.viewId? names html := by
  obtain ⟨first, hfirst⟩ := Document.empty.exists_head?_read (Markup.hasElement_of_head? he)
  obtain ⟨k, -, hhead, hcopy⟩ := Document.exists_copy_read hf hfirst
  obtain rfl : e = first + k := Option.some.inj (he.symm.trans hhead)
  obtain ⟨hpos, hlt, -⟩ := Document.root_read (List.mem_of_mem_head? hfirst)
  rw [Document.attribute?_congr (Document.attributes_congr (hcopy.bare? hpos hlt))]
  unfold Markup.viewId?
  rw [hfirst]
  rfl

namespace Client

/-! ### What is in the way -/

/-- What keeps a fragment from being put in for its view, in the order in which a push finds out. -/
def pushObstacle? (client : Client MemoryPage) (page : MemoryPage) (html : String) : Option PatchError :=
  if .create ∈ page.refused then some (.page (MemoryPage.refusal .create))
  else if Markup.hasElement html then
    match Markup.viewId? client.settings.vocabulary html with
    | none => some (.lookup .missingViewId)
    | some id =>
      match Page.query page none (Selector.forAttribute client.settings.vocabulary.viewId id) with
      | .error cause => some (.page cause)
      | .ok [] => some (.lookup (.unknownView id))
      | .ok (_ :: _) => if .replace ∈ page.refused then some (.page (MemoryPage.refusal .replace)) else none
  else some (.content .noElement)

theorem swapPushed_of_obstacle? {cause : PatchError} (hf : scene.page.document.Forest)
    (h : client.pushObstacle? scene.page html = some cause) : (client.swapPushed scene html).2 = .error cause := by
  unfold pushObstacle? at h
  split at h
  · rename_i hrefused
    have hcreate : Page.create scene.page html = .error (MemoryPage.refusal .create) :=
      MemoryPage.allow_of_refused hrefused _
    unfold swapPushed
    rw [hcreate, ← Option.some.inj h]
  · rename_i hallowed
    split at h
    · rename_i has
      obtain ⟨e, he⟩ := scene.page.document.exists_head?_read has
      obtain ⟨handedOut, hcreate⟩ := MemoryPage.create_eq_some hallowed he
      obtain ⟨made, hmade, hcreate⟩ : ∃ made,
          made = { scene.page with document := (scene.page.document.read html).1, handedOut } ∧
            Page.create scene.page html = .ok (some e, made) := ⟨_, rfl, hcreate⟩
      have hattribute : Page.attribute? made e client.settings.vocabulary.viewId =
          Markup.viewId? client.settings.vocabulary html := by
        rw [hmade]
        exact Markup.attribute?_read hf he _
      unfold swapPushed
      rw [hcreate]
      dsimp only
      rw [hattribute]
      cases hid : Markup.viewId? client.settings.vocabulary html with
      | none =>
        rw [hid] at h
        rw [← Option.some.inj h]
      | some id =>
        rw [hid] at h
        dsimp only at h ⊢
        rw [MemoryPage.query_create hf hcreate]
        cases hquery : Page.query scene.page none (Selector.forAttribute client.settings.vocabulary.viewId id) with
        | error cause' =>
          rw [hquery] at h
          rw [← Option.some.inj h]
        | ok found =>
          rw [hquery] at h
          cases found with
          | nil => rw [← Option.some.inj h]
          | cons target rest =>
            dsimp only at h ⊢
            split at h
            · rename_i hrefused
              have hrefused' : .replace ∈ made.refused := by
                rw [hmade]
                exact hrefused
              have hinsert : insertElement .swap made target e = .error (MemoryPage.refusal .replace) :=
                MemoryPage.allow_of_refused hrefused' _
              rw [hinsert, ← Option.some.inj h]
            · simp at h
    · rename_i hempty
      have hcreate : Page.create scene.page html = _ :=
        MemoryPage.create_of_empty hallowed (by simpa using hempty)
      unfold swapPushed
      rw [hcreate, ← Option.some.inj h]

/-- Nothing is in the way of a fragment with a view id that a search finds, if nothing is refused. -/
theorem pushObstacle?_eq_none_iff : client.pushObstacle? page html = none ↔
    .create ∉ page.refused ∧ .replace ∉ page.refused ∧
      ∃ id target rest, Markup.viewId? client.settings.vocabulary html = some id ∧
        Page.query page none (Selector.forAttribute client.settings.vocabulary.viewId id) = .ok (target :: rest) := by
  constructor
  · intro h
    unfold pushObstacle? at h
    split at h
    · simp at h
    · rename_i hcreatable
      split at h
      · split at h
        · simp at h
        · rename_i id hid
          split at h
          · simp at h
          · simp at h
          · rename_i target rest hquery
            split at h
            · simp at h
            · rename_i hreplaceable
              exact ⟨hcreatable, hreplaceable, id, target, rest, hid, hquery⟩
      · simp at h
  · rintro ⟨hcreatable, hreplaceable, id, target, rest, hid, hquery⟩
    obtain ⟨first, hfirst, -⟩ := Option.bind_eq_some_iff.1 hid
    unfold pushObstacle?
    rw [if_neg hcreatable, if_pos (Markup.hasElement_of_head? hfirst), hid]
    dsimp only
    rw [hquery]
    dsimp only
    rw [if_neg hreplaceable]

/-! ### What fails -/

/-- A push that does not put its element in leaves at most nodes that nothing refers to. -/
theorem untouched_of_error {cause : PatchError} (hf : scene.page.document.Forest)
    (h : (client.swapPushed scene html).2 = .error cause) :
    scene.page.Untouched (client.swapPushed scene html).1.page ∧
      client.pushObstacle? (client.swapPushed scene html).1.page html = client.pushObstacle? scene.page html := by
  rcases client.swapPushed_cases scene html with
    ⟨-, -, hpage | ⟨handedOut, hpage⟩⟩ | ⟨e, -, -, -, -, next, -, -, -, heq⟩
  · rw [hpage]
    exact ⟨⟨⟨_, _, rfl⟩, fun _ => rfl, fun _ => rfl⟩, rfl⟩
  · rw [hpage]
    refine ⟨⟨⟨_, handedOut, rfl⟩, fun hn => Document.node?_read hn, fun label => hf.tree_read html label⟩, ?_⟩
    have hquery : ∀ selector, Page.query { scene.page with document := (scene.page.document.read html).1, handedOut }
        none selector = Page.query scene.page none selector :=
      MemoryPage.query_congr (hf.query_read html)
    unfold pushObstacle?
    simp only [hquery]
  · rw [heq] at h
    simp at h

/-! ### What is put in -/

/-- The first element of a fragment has been put in the place of `target`, the first element with its view id. -/
structure Placed (client : Client MemoryPage) (scene : Scene MemoryPage) (html id : String) (target : NodeId)
    (rest : List NodeId) (e : NodeId) (next : Scene MemoryPage) : Prop where
  viewId : Markup.viewId? client.settings.vocabulary html = some id
  query : Page.query scene.page none (Selector.forAttribute client.settings.vocabulary.viewId id) =
    .ok (target :: rest)
  head : (scene.page.document.read html).2.head? = some e
  page : ∃ document handedOut, Document.put? .swap (scene.page.document.read html).1 target e = some document ∧
    next.page = { scene.page with document, handedOut }

/-- Without an obstacle a push puts its element in and binds it. -/
theorem swapPushed_of_clear (hf : scene.page.document.Forest) (h : client.pushObstacle? scene.page html = none) :
    ∃ id target rest e next, client.Placed scene html id target rest e next ∧
      client.swapPushed scene html = ((client.scan next [e]).1, .ok { kind := .swap, inserted := [e] }) := by
  obtain ⟨hcreatable, hreplaceable, id, target, rest, hid, hquery⟩ := pushObstacle?_eq_none_iff.1 h
  have hconnected : Page.isConnected scene.page target = true :=
    hf.isAttached_iff.2 (attached_of_mem_query hf hquery List.mem_cons_self)
  have hroot : target ≠ Document.root := (mem_query hf hquery).2 target List.mem_cons_self
  obtain ⟨e, made, hcreate, hattribute⟩ := Markup.exists_create_of_viewId? hf hcreatable hid
  obtain ⟨placed, hinsert⟩ := exists_insertElement hf hreplaceable hroot hconnected hcreate
  have hquery' := (MemoryPage.query_create hf hcreate _).trans hquery
  have hcreate' : Page.create scene.page html = .ok (some e, made) := hcreate
  refine ⟨id, target, rest, e, { scene with page := placed }, ⟨hid, hquery, ?_, ?_⟩, ?_⟩
  · exact (MemoryPage.create_eq_ok hcreate).2.1.symm
  · obtain ⟨document, hput, rfl⟩ := MemoryPage.insertElement_eq_ok hinsert
    obtain ⟨-, -, handedOut, rfl⟩ := MemoryPage.create_eq_ok hcreate
    exact ⟨document, handedOut, hput, rfl⟩
  · unfold swapPushed
    simp only [hcreate', hattribute, hquery', hinsert]
    rfl

theorem exists_swapPushed_eq_ok_iff (hf : scene.page.document.Forest) :
    (∃ outcome, (client.swapPushed scene html).2 = .ok outcome) ↔ client.pushObstacle? scene.page html = none := by
  constructor
  · rintro ⟨outcome, hok⟩
    cases hobstacle : client.pushObstacle? scene.page html with
    | none => rfl
    | some cause => simp [swapPushed_of_obstacle? hf hobstacle] at hok
  · intro h
    obtain ⟨id, target, rest, e, next, -, heq⟩ := swapPushed_of_clear hf h
    exact ⟨_, congrArg Prod.snd heq⟩

namespace Placed

variable (h : client.Placed scene html id target rest e next) (hf : scene.page.document.Forest)

include h hf

theorem target_mem : target < scene.page.document.size ∧ target ≠ Document.root ∧
    scene.page.document.Above Document.root target := by
  have hattached := attached_of_mem_query hf h.query List.mem_cons_self
  exact ⟨hattached.lt_size hf.root_lt_size, (mem_query hf h.query).2 target List.mem_cons_self, hattached⟩

/-- Of the old nodes only the parent of the target has other children than before. -/
theorem remade : scene.page.document.Remade .swap [target] (fun _ => e) next.page.document := by
  obtain ⟨document, handedOut, hput, hpage⟩ := h.page
  have hone := (Document.Remade.refl .swap (fun _ => e) scene.page.document).put hf rfl (h.target_mem hf).1
    List.not_mem_nil (List.mem_of_mem_head? h.head) hput
  rw [Function.update_eq_self] at hone
  rw [hpage]
  exact hone

theorem edited : scene.page.Edited next.page := by
  obtain ⟨document, handedOut, -, hpage⟩ := h.page
  have hgrows := (h.remade hf).toGrows
  rw [hpage] at hgrows
  exact ⟨document, handedOut, hgrows, hpage⟩

theorem holds : ∃ first k, (Document.empty.read html).2.head? = some first ∧ scene.page.document.size = k + 1 ∧
    e = first + k ∧ next.page.document.Holds (Document.empty.read html).1 k := by
  obtain ⟨document, handedOut, hput, hpage⟩ := h.page
  obtain ⟨first, hfirst⟩ := Document.empty.exists_head?_read (Markup.hasElement_of_head? h.head)
  obtain ⟨k, hsize, he, hcopy⟩ := Document.exists_holds_put? hf rfl (h.target_mem hf).1 hfirst h.head hput
  rw [hpage]
  exact ⟨first, k, hfirst, hsize, he, hcopy⟩

theorem sprouted : scene.page.document.Sprouted next.page.document html e := by
  obtain ⟨first, k, hfirst, hsize, rfl, hcopy⟩ := h.holds hf
  have hremade := h.remade hf
  obtain ⟨hsizeTarget, hroot, hattached⟩ := h.target_mem hf
  have hreached : PatchKind.reached .swap scene.page.document [target] = [target] := by
    simp [PatchKind.reached, PatchKind.reaches, Document.isTopmost]
  obtain ⟨p, hp, hpa, hparent⟩ := (hreached.symm ▸ hremade).exists_parent_copy hf rfl
    (fun u hu => List.mem_singleton.1 hu ▸ ⟨hroot, hattached⟩) (hreached.symm ▸ List.mem_singleton_self target)
  exact hcopy.sprouted (hremade.forest hf) (Nat.le_of_eq hsize) hfirst hp hpa hparent

end Placed

end Client

end PageBindings
