import PageBindings.Script.Outline
import PageBindings.Proofs.Patch.Basic

/-!
# Pages with a record

`RecordingPage` is a page in memory that keeps a record of what becomes of its document: all the documents that it has
had, and the insertions of a child at a place among others.  Apart from the record it does what the page below does.
The record is orderly if every document in it is a forest, nodes keep what is written in them from one document to the
next, and every place is one that there was (`RecordingPage.Orderly`).

A page looks a place up before it takes the nodes out that are exchanged.  The place is still there afterwards if the
one that is put in had no place before (`Linked.fits_of_replacement?`), which is why the record stays orderly when an
element is put in that was just made (`Orderly.insert`).
-/

namespace PageBindings

/-- A child is put in at a place among the children of a node. -/
structure Insertion where
  /-- The document just before. -/
  document : Document
  parent : NodeId
  child : NodeId
  index : Nat
deriving DecidableEq, Repr

namespace Insertion

/-- The document afterwards. -/
def result (i : Insertion) : Document :=
  i.document.attachAt i.parent i.child i.index

/-- Once the child has left its old place there are as many children as come before its new one. -/
def Fits (i : Insertion) : Prop :=
  i.index ≤ ((i.document.detach i.child).children i.parent).length

end Insertion

namespace Document

variable {d d' : Document} {kind : PatchKind} {target e : NodeId} {i : Insertion}

/-- The insertion that puts `replacement` in the place of `target`, after both were taken out. -/
def replacement? (d : Document) (target replacement : NodeId) : Option Insertion :=
  (d.place? target).map fun (parent, index) =>
    { document := (d.detach target).detach replacement, parent, child := replacement, index }

/-- The insertion at a place, if there is one, by which a kind of patch puts an element in. -/
def insertion? (kind : PatchKind) (d : Document) (target element : NodeId) : Option Insertion :=
  match kind with
  | .swap => d.replacement? target element
  | .prepend => some { document := d, parent := target, child := element, index := 0 }
  | .append | .remove | .reset => none

theorem replaceNode?_eq (d : Document) (target e : NodeId) :
    d.replaceNode? target e = (d.replacement? target e).map Insertion.result := by
  unfold replaceNode? replacement?
  rw [Option.map_map]
  rfl

/-- Two kinds of patch put an element in at a place. -/
theorem insertion?_cases (hi : insertion? kind d target e = some i) :
    kind = .swap ∧ d.replacement? target e = some i ∨
      kind = .prepend ∧ i = { document := d, parent := target, child := e, index := 0 } := by
  cases kind with
  | swap => exact .inl ⟨rfl, hi⟩
  | prepend => exact .inr ⟨rfl, (Option.some.inj hi).symm⟩
  | append => simp [insertion?] at hi
  | remove => simp [insertion?] at hi
  | reset => simp [insertion?] at hi

theorem result_of_insertion? (h : put? kind d target e = some d') (hi : insertion? kind d target e = some i) :
    i.result = d' := by
  rcases insertion?_cases hi with ⟨rfl, hreplacement⟩ | ⟨rfl, rfl⟩
  · have hmade : (d.replacement? target e).map Insertion.result = some d' := (replaceNode?_eq d target e).symm.trans h
    rw [hreplacement] at hmade
    exact Option.some.inj hmade
  · exact Option.some.inj h

/-- What had no parent was no child of another, and can take the place of every target. -/
theorem Linked.fits_of_replacement? (h : d.Linked) (hnone : d.parent? e = none)
    (hi : d.replacement? target e = some i) : i.Fits := by
  obtain ⟨⟨p, index⟩, hplace, rfl⟩ := Option.map_eq_some_iff.1 hi
  obtain ⟨q, hq, -⟩ := Option.map_eq_some_iff.1 hplace
  have hne : e ≠ target := by
    rintro rfl
    simp [hnone] at hq
  have hout : ((d.detach target).detach e).parent? e = none := by rw [parent?_detach, if_pos rfl]
  unfold Insertion.Fits
  rw [detach_of_parent?_eq_none hout]
  exact (h.index_le_iff hne hplace).2 fun hlast => by simp [hnone] at hlast

theorem Linked.fits_of_insertion? (h : d.Linked) (hnone : d.parent? e = none)
    (hi : insertion? kind d target e = some i) : i.Fits := by
  rcases insertion?_cases hi with ⟨-, hreplacement⟩ | ⟨-, rfl⟩
  · exact h.fits_of_replacement? hnone hreplacement
  · exact Nat.zero_le _

end Document

/-- A page in memory that keeps a record of what becomes of its document. -/
structure RecordingPage where
  /-- The page below, on which everything is done. -/
  base : MemoryPage
  /-- The documents that it has had before, the last one first. -/
  past : List Document := []
  /-- The insertions at a place, the last one first. -/
  insertions : List Insertion := []

namespace RecordingPage

/-- All documents that the page has had, the present one first. -/
def history (page : RecordingPage) : List Document :=
  page.base.document :: page.past

/-- The page after its document was edited, by an insertion at a place or otherwise. -/
def become (page : RecordingPage) (insertion : Option Insertion) (base : MemoryPage) : RecordingPage :=
  { base, past := page.history, insertions := insertion.toList ++ page.insertions }

instance : Page RecordingPage where
  label page := Page.label page.base
  query page := Page.query page.base
  contains page := Page.contains page.base
  isConnected page := Page.isConnected page.base
  attribute? page := Page.attribute? page.base
  value? page := Page.value? page.base
  create page html := (Page.create page.base html).map fun (element, base) => (element, page.become none base)
  replace page target replacement := (Page.replace page.base target replacement).map
    (page.become (Document.insertion? .swap page.base.document target replacement))
  append page parent child := (Page.append page.base parent child).map
    (page.become (Document.insertion? .append page.base.document parent child))
  prepend page parent child := (Page.prepend page.base parent child).map
    (page.become (Document.insertion? .prepend page.base.document parent child))
  remove page node := (Page.remove page.base node).map (page.become none)
  reset page node := (Page.reset page.base node).map (page.become none)
  claim page node eventType :=
    let (fresh, base, notices) := Page.claim page.base node eventType
    (fresh, { page with base }, notices)
  release page node eventType :=
    let (base, notices) := Page.release page.base node eventType
    ({ page with base }, notices)
  listen page listener := (Page.listen page.base listener).map fun base => { page with base }
  listeners page := Page.listeners page.base
  currentTarget? page := Page.currentTarget? page.base
  send page request errand := (Page.send page.base request errand).map fun base => { page with base }
  subscribe page url owner :=
    (Page.subscribe page.base url owner).map fun (stream, base) => (stream, { page with base })
  unsubscribe page stream := { page with base := Page.unsubscribe page.base stream }
  freshClientId page :=
    let (id, base) := Page.freshClientId page.base
    (id, { page with base })

instance : VisiblePage RecordingPage where
  document page := VisiblePage.document page.base
  allListeners page := VisiblePage.allListeners page.base
  handedOut page := VisiblePage.handedOut page.base
  enter page node value := page.become none (VisiblePage.enter page.base node value)

theorem create_eq (page : RecordingPage) (html : String) :
    Page.create page html = (Page.create page.base html).map fun made => (made.1, page.become none made.2) :=
  rfl

theorem subscribe_eq (page : RecordingPage) (url : String) (owner : ClientRef) :
    Page.subscribe page url owner =
      (Page.subscribe page.base url owner).map fun opened => (opened.1, { page with base := opened.2 }) :=
  rfl

/-! ### Orderly records -/

/-- All that was recorded is as it should be. -/
structure Orderly (page : RecordingPage) : Prop where
  forest : ∀ d ∈ page.history, d.Forest
  /-- Nodes keep what is written in them. -/
  keeps : page.history.Pairwise fun later earlier => earlier.Keeps later
  /-- Every insertion had a place, and gave one of the documents. -/
  fits : ∀ i ∈ page.insertions, i.Fits ∧ i.result ∈ page.history

variable {page : RecordingPage} {base : MemoryPage} {kind : PatchKind} {target e : NodeId} {html : String}

namespace Orderly

theorem present (h : page.Orderly) : page.base.document.Forest :=
  h.forest _ List.mem_cons_self

/-- What the page has besides its document does not matter. -/
theorem withBase (h : page.Orderly) (hdocument : base.document = page.base.document) :
    { page with base : RecordingPage }.Orderly := by
  have hhistory : { page with base : RecordingPage }.history = page.history :=
    congrArg (List.cons · page.past) hdocument
  refine ⟨?_, ?_, ?_⟩
  · rw [hhistory]
    exact h.forest
  · rw [hhistory]
    exact h.keeps
  · rw [hhistory]
    exact h.fits

theorem become {insertion : Option Insertion} (h : page.Orderly) (hforest : base.document.Forest)
    (hkeeps : page.base.document.Keeps base.document) (hfits : ∀ i ∈ insertion, i.Fits ∧ i.result = base.document) :
    (page.become insertion base).Orderly where
  forest := List.forall_mem_cons.2 ⟨hforest, h.forest⟩
  keeps := by
    refine List.pairwise_cons.2 ⟨fun d hd => ?_, h.keeps⟩
    rcases List.mem_cons.1 hd with rfl | hd
    · exact hkeeps
    · exact ((List.pairwise_cons.1 h.keeps).1 d hd).trans hkeeps
  fits i hi := by
    rcases List.mem_append.1 hi with hi | hi
    · obtain ⟨hfit, hresult⟩ := hfits i (Option.mem_toList.1 hi)
      exact ⟨hfit, hresult ▸ List.mem_cons_self⟩
    · exact ⟨(h.fits i hi).1, List.mem_cons_of_mem _ (h.fits i hi).2⟩

/-- An edit that moves no old node. -/
theorem edit (h : page.Orderly) (grows : page.base.document.Grows base.document) : (page.become none base).Orderly :=
  h.become (grows.forest h.present) grows.toKeeps fun i hi => by simp at hi

/-- A new element is put in for a target, which is one that was there before. -/
theorem insert {handedOut : List NodeId} {document : Document} (h : page.Orderly)
    (hk : kind.creates = true) (he : e ∈ (page.base.document.read html).2) (ht : target < page.base.document.size)
    (hput : Document.put? kind (page.base.document.read html).1 target e = some document) :
    ((page.become none { page.base with document := (page.base.document.read html).1, handedOut }).become
      (Document.insertion? kind (page.base.document.read html).1 target e)
      { page.base with document, handedOut }).Orderly := by
  have hread := Document.grows_read page.base.document html
  have hlinked := (hread.forest h.present).linked
  have hmade : (page.become none
      { page.base with document := (page.base.document.read html).1, handedOut }).Orderly := h.edit hread
  refine hmade.become ?_ (Document.keeps_put? hput) fun i hi => ⟨?_, Document.result_of_insertion? hput hi⟩
  · exact (Document.grows_put? hk he hput fun _ => ht).forest h.present
  · exact hlinked.fits_of_insertion? (Document.root_read he).2.2 hi

end Orderly

end RecordingPage

end PageBindings
