import PageBindings.Proofs.Client.Delivery
import PageBindings.Proofs.Client.Rebinding

/-!
# Pushes that come twice

A push of a fragment that was pushed just before finds the element that was put in then: this has the view id, and is
in the place of what was the first element with it (`Placed.query_first`).  So it takes that element out again, and
puts in another copy of the same, which gets the same listeners.  A way to number the new elements (`Renumbered`)
tells the pages after the one push and after both apart, and nothing else does (`swapPushed_swapPushed`).
-/

namespace PageBindings

variable {client : Client MemoryPage} {page page' : MemoryPage} {scene next : Scene MemoryPage} {html view : String}
  {e n target : NodeId} {rest : List NodeId} {known : Nat} {number : NodeId → NodeId}

/-! ### Other numbers -/

namespace MemoryPage

/-- The second page has the elements of the first one under other numbers, but for those that were known before. -/
structure Renumbered (known : Nat) (number : NodeId → NodeId) (page page' : MemoryPage) : Prop where
  old {n : NodeId} (hn : n < known) : number n = n
  children {n : NodeId} (hn : page.document.Above Document.root n) :
    page'.document.children (number n) = (page.document.children n).map number
  features {n : NodeId} (hn : n < page.document.size) :
    page'.features known (number n) = page.features known n

theorem Untouched.renumbered (h : page.Untouched page') (hf : page.document.Forest) (known : Nat) :
    Renumbered known id page page' where
  old _ := rfl
  children {n} hn := by
    rw [List.map_id]
    unfold Document.children
    exact congrArg (fun node? => (node?.map Node.children).getD []) (h.node? (hn.lt_size hf.root_lt_size))
  features {n} hn := by
    obtain ⟨document, handedOut, hpage⟩ := h.rest
    apply features_congr
    · unfold features
      rfl
    · unfold Document.bare?
      exact congrArg (Option.map Node.bare) (h.node? hn)
    · intro eventType
      rw [hpage]
      rfl

theorem Renumbered.shape_eq (h : Renumbered known number page page') (hf : page.document.Forest)
    (hf' : page'.document.Forest) (hknown : 0 < known) : page'.shape known = page.shape known := by
  have hroot : number Document.root = Document.root := h.old hknown
  have htree : page'.document.tree (page'.features known) (number Document.root) =
      page.document.tree (page'.features known ∘ number) Document.root :=
    hf.tree_eq_of_children hf' fun m hm => h.children hm
  rw [hroot] at htree
  unfold shape
  rw [htree]
  exact hf.tree_congr fun m hm => h.features (hm.lt_size hf.root_lt_size)

end MemoryPage

/-- The outcome with other numbers for the elements that were put in. -/
def PatchOutcome.renumber (number : NodeId → NodeId) (outcome : PatchOutcome) : PatchOutcome :=
  { outcome with inserted := outcome.inserted.map number }

/-! ### What is found first -/

namespace Document

variable {d d' : Document} {conditions : Selector}

private theorem Forest.attached_of_mem_descendants (hf : d.Forest) (h : n ∈ d.descendants root) :
    n ≠ root ∧ d.Above root n := by
  have hbelow := hf.mem_descendants_iff.1 h
  refine ⟨?_, above_iff_eq_or_properlyAbove.2 (.inr hbelow)⟩
  rintro rfl
  exact hf.acyclic root hbelow

/-- What a search of the document finds first is the first of the labels that stand for matches. -/
private theorem Forest.find?_labels_tree (hf : d.Forest) {p : NodeId → Bool} (hroot : p root = false)
    (hp : ∀ m ∈ d.descendants root, p m = d.isMatch conditions m) :
    (d.tree id root).labels.find? p = (d.query root conditions).head? := by
  rw [hf.labels_tree, List.map_id, List.find?_cons, hroot, ← List.head?_filter]
  exact congrArg List.head? (List.filter_congr hp)

/-- A match that was read and put in the place of the first match is the first match then. -/
theorem Forest.head?_query_put? (hf : d.Forest) {markup : String} (he : (d.read markup).2.head? = some e)
    (hput : put? .swap (d.read markup).1 target e = some d')
    (hfirst : (d.query root conditions).head? = some target) (hmatch : d'.isMatch conditions e = true) :
    (d'.query root conditions).head? = some e := by
  obtain ⟨hdescendant, htarget⟩ := List.mem_filter.1 (List.mem_of_mem_head? hfirst)
  obtain ⟨htargetRoot, hattached⟩ := hf.attached_of_mem_descendants hdescendant
  have hsize := hattached.lt_size hf.root_lt_size
  have hmem := List.mem_of_mem_head? he
  obtain ⟨hnew, -, hnone⟩ := root_read hmem
  have hread := grows_read d markup
  have hgrows := grows_put? rfl hmem hput fun _ => hsize
  have hf' := hgrows.forest hf
  -- the labels that stand for matches in either document
  let p : NodeId → Bool := fun m => m != root && d'.isMatch conditions m
  have hp : ∀ m, m ≠ root → p m = d'.isMatch conditions m := fun m hm => by simp [p, hm]
  have hbefore : (d.tree id root).labels.find? p = some target := by
    rw [← hfirst]
    refine hf.find?_labels_tree rfl fun m hm => ?_
    obtain ⟨hmroot, hmattached⟩ := hf.attached_of_mem_descendants hm
    have hold := hmattached.lt_size hf.root_lt_size
    rw [hp m hmroot]
    exact isMatch_congr (hgrows.tag hold) (hgrows.attributes hold) conditions
  have hspliced := spliced_put? (hread.forest hf) hnone (Nat.lt_of_lt_of_le hsize hread.size_le) rfl hput
  have hhit : ∀ m, (d.read markup).1.Above root m → ((id m == target) = true ↔ m = target) := fun m _ => beq_iff_eq
  have hgraft :
      ((d.read markup).1.tree id root).graft { kind := .swap, hit := (· == target), scion := d'.tree id e } =
      [d'.tree id root] :=
    hspliced.graft_tree (hread.forest hf) hf' hhit (Ne.symm htargetRoot) fun _ => rfl
  rw [hf.tree_read] at hgraft
  have hscion : (d'.tree id e).labels.find? p = some e := by
    have hpe : p e = true := (hp e (Nat.ne_of_gt (Nat.lt_of_lt_of_le hf.root_lt_size hnew))).trans hmatch
    rw [hf'.labels_tree, List.map_id, List.find?_cons, hpe]
  have hafter := Tree.find?_labels_graft (g := { kind := .swap, hit := (· == target), scion := d'.tree id e }) rfl
    (fun m hm => ?_) hscion (beq_self_eq_true target) hbefore
  · rw [hgraft, List.flatMap_singleton] at hafter
    rw [← hafter]
    exact (hf'.find?_labels_tree rfl fun m hm => hp m (hf'.attached_of_mem_descendants hm).1).symm
  · obtain rfl : m = target := beq_iff_eq.1 hm
    rw [hp m htargetRoot, ← htarget]
    exact isMatch_congr (hgrows.tag hsize) (hgrows.attributes hsize) conditions

/-! ### One copy for another -/

/--
Numbers for the nodes of a document that tell the copy of what is below `first` with offset `k` from that with `k'`.
-/
structure Shifts (d source : Document) (first : NodeId) (k k' : Nat) (number : NodeId → NodeId) : Prop where
  inside {j : NodeId} (hj : source.Above first j) : number (j + k) = j + k'
  outside {m : NodeId} (hm : ¬ d.Above (first + k) m) : number m = m

variable {source : Document} {first m : NodeId} {k k' : Nat}

private theorem Holds.exists_shifts (h : d.Holds source k) (hs : source.Forest) (hf : d.Forest) (hpos : 0 < first)
    (hlt : first < source.size) (k' : Nat) : ∃ number, d.Shifts source first k k' number := by
  refine ⟨fun m => if d.contains (first + k) m then m - k + k' else m, fun {j} hj => ?_, fun {m} hm => ?_⟩
  · have hcontains := hf.contains_iff.2 ((h.above_iff hs hf hpos hlt).2 ⟨j, hj, rfl⟩)
    rw [if_pos hcontains, Nat.add_sub_cancel]
  · exact if_neg fun hcontains => hm (hf.contains_iff.1 hcontains)

private theorem Shifts.children (h : d.Shifts source first k k' number) (hs : source.Forest) (hf : d.Forest)
    (hpos : 0 < first) (hlt : first < source.size) (hcopy : d.Holds source k) (hcopy' : d'.Holds source k')
    (hremade : d.Remade .swap [first + k] (fun _ => first + k') d') (hm : m < d.size) :
    d'.children (number m) = (d.children m).map number := by
  by_cases habove : d.Above (first + k) m
  · obtain ⟨j, hj, rfl⟩ := (hcopy.above_iff hs hf hpos hlt).1 habove
    have hjpos := hs.pos_of_above hpos hj
    have hjlt := hj.lt_size hlt
    rw [h.inside hj, hcopy.children hjpos hjlt, hcopy'.children hjpos hjlt, List.map_map]
    refine List.map_congr_left fun c hc => (h.inside ?_).symm
    exact hj.trans (Above.of_parent? (hs.mem_children_iff.1 hc) (Above.refl _ j))
  · rw [h.outside habove, hremade.children hm]
    refine List.map_congr_left fun c hc => ?_
    by_cases hce : c = first + k
    · rw [if_pos (List.mem_singleton.2 hce), hce, h.inside (Above.refl _ first)]
    · have hout : ¬ d.Above (first + k) c := by
        intro hcabove
        rcases above_iff.1 hcabove with heq | ⟨p, hp, hpabove⟩
        · exact hce heq.symm
        · obtain rfl := Option.some.inj (hp.symm.trans (hf.mem_children_iff.1 hc))
          exact habove hpabove
      rw [if_neg fun hmem => hce (List.mem_singleton.1 hmem), h.outside hout]

end Document

namespace Client

/-! ### One push after the other -/

theorem Placed.query_first (h : client.Placed scene html view target rest e next) (hf : scene.page.document.Forest)
    (hname : ∀ c ∈ client.settings.vocabulary.viewId.toList, Selector.isNameChar c = true) :
    ∃ others, Page.query next.page none (Selector.forAttribute client.settings.vocabulary.viewId view) =
      .ok (e :: others) := by
  have hquery : ∀ page : MemoryPage,
      Page.query page none (Selector.forAttribute client.settings.vocabulary.viewId view) =
        .ok (page.document.query Document.root [.equals client.settings.vocabulary.viewId view]) := by
    exact MemoryPage.query_of_parse? (Selector.parse?_forAttribute hname view)
  have hfirst : (scene.page.document.query Document.root
      [.equals client.settings.vocabulary.viewId view]).head? = some target := by
    rw [Except.ok.inj ((hquery scene.page).symm.trans h.query)]
    rfl
  obtain ⟨document, handedOut, hput, hpage⟩ := h.page
  have hnew := Document.root_read (List.mem_of_mem_head? h.head)
  have hmatch : document.isMatch [.equals client.settings.vocabulary.viewId view] e = true := by
    rw [Document.isMatch_equals_iff, (Document.keeps_put? hput).attribute? hnew.2.1]
    exact (Markup.attribute?_read hf h.head _).trans h.viewId
  have hhead := hf.head?_query_put? h.head hput hfirst hmatch
  have hfound := hquery next.page
  rw [hpage] at hfound ⊢
  dsimp only at hfound
  cases hlist : document.query Document.root [.equals client.settings.vocabulary.viewId view] with
  | nil => simp [hlist] at hhead
  | cons found others =>
    rw [hlist] at hhead hfound
    obtain rfl : found = e := Option.some.inj hhead
    exact ⟨others, hfound⟩

private theorem Placed.bare? (h : client.Placed scene html view target rest e next)
    (hn : n < scene.page.document.size) :
    next.page.document.bare? n = scene.page.document.bare? n := by
  obtain ⟨document, handedOut, hput, hpage⟩ := h.page
  rw [hpage]
  exact (Document.bare?_put? hput n).trans ((Document.preserves_read 0 _ html).bare? hn)

private theorem Placed.features_old (h : client.Placed scene html view target rest e next)
    (hf : scene.page.document.Forest) (hn : n < scene.page.document.size) (known : Nat) :
    (client.scan next [e]).1.page.features known n = scene.page.features known n := by
  have hedited := h.edited hf
  have hout : ∀ root ∈ [e], ¬ next.page.document.Above root n := by
    intro root hroot habove
    rw [List.mem_singleton.1 hroot] at habove
    exact absurd hn (Nat.not_lt.2 ((h.sprouted hf).new habove))
  apply MemoryPage.features_congr
  · unfold MemoryPage.features
    rfl
  · rw [document_of_binds (client.binds_scan next [e])]
    exact h.bare? hn
  · intro eventType
    rw [(scan_of_not_above (hedited.grows.forest hf) hout eventType).2]
    unfold MemoryPage.listenersOf
    rw [hedited.listeners]

/-- A new node gets the features that it gets on a page with nothing but the fragment. -/
private theorem Placed.features_new {k : Nat} {first j : NodeId}
    (h : client.Placed scene html view target rest (first + k) next)
    (hf : scene.page.document.Forest) (hs : scene.page.Seated)
    (hfirst : (Document.empty.read html).2.head? = some first) (hsize : scene.page.document.size = k + 1)
    (hcopy : next.page.document.Holds (Document.empty.read html).1 k) (hknown : known ≤ scene.page.document.size)
    (hj : (Document.empty.read html).1.Above first j) :
    (client.scan next [first + k]).1.page.features known (j + k) =
      (client.scan { page := { document := (Document.empty.read html).1, refused := scene.page.refused } }
        [first]).1.page.features 0 j := by
  have hedited := h.edited hf
  have hsource := Document.forest_read_empty html
  obtain ⟨hpos, hlt, -⟩ := Document.root_read (List.mem_of_mem_head? hfirst)
  have hnew : scene.page.document.size ≤ j + k :=
    Document.le_add_of_pos (Nat.le_of_eq hsize) (hsource.pos_of_above hpos hj)
  have hunbound : ∀ eventType, (j + k, eventType) ∉ next.page.marks ∧
      (next.page.listenersOf (j + k) eventType).length = 0 := by
    intro eventType
    unfold MemoryPage.listenersOf
    rw [hedited.marks, hedited.listeners]
    exact hs.length_listenersOf hnew eventType
  rw [← hedited.refused]
  exact features_copy client (hedited.grows.forest hf) hsource hcopy ⟨hpos, hlt⟩ hunbound (hsize ▸ hknown)
    (List.pairwise_singleton _ _) (List.mem_singleton_self _) hj

/-- Where a push replaces what the one before it has put in, the pages after the two differ in the numbers of that. -/
theorem Placed.renumbered {next' : Scene MemoryPage} {e' : NodeId} {others : List NodeId}
    (h : client.Placed scene html view target rest e next)
    (h' : client.Placed (client.scan next [e]).1 html view e others e' next') (hf : scene.page.document.Forest)
    (hs : scene.page.Seated) :
    ∃ number, number e = e' ∧ MemoryPage.Renumbered scene.page.document.size number (client.scan next [e]).1.page
      (client.scan next' [e']).1.page := by
  obtain ⟨first, k, hfirst, hsize, rfl, hcopy⟩ := h.holds hf
  have hmiddle : (client.scan next [first + k]).1.page.document = next.page.document :=
    document_of_binds (client.binds_scan next [first + k])
  have hlast : (client.scan next' [e']).1.page.document = next'.page.document :=
    document_of_binds (client.binds_scan next' [e'])
  have hgrows := (h.remade hf).toGrows
  have hf' := hgrows.forest hf
  have hfm : (client.scan next [first + k]).1.page.document.Forest := hmiddle.symm ▸ hf'
  obtain ⟨first', k', hfirst', hsize', rfl, hcopy'⟩ := h'.holds hfm
  obtain rfl : first = first' := Option.some.inj (hfirst.symm.trans hfirst')
  have hsource := Document.forest_read_empty html
  obtain ⟨hpos, hlt, -⟩ := Document.root_read (List.mem_of_mem_head? hfirst)
  obtain ⟨number, hnumber⟩ := hcopy.exists_shifts hsource hf' hpos hlt k'
  refine ⟨number, hnumber.inside (Document.Above.refl _ first), fun hn => hnumber.outside fun habove => ?_,
    fun {m} hm => ?_, fun {m} hm => ?_⟩
  · exact absurd hn (Nat.not_lt.2 ((h.sprouted hf).new habove))
  · have hremade := h'.remade hfm
    rw [hmiddle] at hm hremade ⊢
    rw [hlast]
    exact hnumber.children hsource hf' hpos hlt hcopy hcopy' hremade (hm.lt_size hf'.root_lt_size)
  · rw [hmiddle] at hm
    by_cases habove : next.page.document.Above (first + k) m
    · obtain ⟨j, hj, rfl⟩ := (hcopy.above_iff hsource hf' hpos hlt).1 habove
      have hseated := seated_of_changes (changes_of_binds (client.binds_scan next [first + k]))
        (seated_of_changes (changes_of_edited client (h.edited hf)) hs)
      have hrefused := (refused_of_binds (client.binds_scan next [first + k])).trans (h.edited hf).refused
      have hone := h.features_new hf hs hfirst hsize hcopy (Nat.le_refl _) hj
      have hsizes : scene.page.document.size ≤ (client.scan next [first + k]).1.page.document.size := by
        rw [hmiddle]
        exact hgrows.size_le
      have hother := h'.features_new hfm hseated hfirst hsize' hcopy' hsizes hj
      rw [hrefused] at hother
      rw [hnumber.inside hj]
      exact hother.trans hone.symm
    · rw [hnumber.outside habove]
      exact h'.features_old hfm (hmiddle.symm ▸ hm) _

private theorem query_scan (selector : String) (roots : List NodeId) :
    Page.query (client.scan scene roots).1.page none selector = Page.query scene.page none selector := by
  refine MemoryPage.query_congr (fun conditions => ?_) selector
  rw [document_of_binds (client.binds_scan scene roots)]

/--
A push of a fragment that was pushed just before has the outcome that it had then, and leaves the page as it was then,
but for the numbers of what it has put in.
-/
theorem swapPushed_swapPushed (client : Client MemoryPage) (scene : Scene MemoryPage) (html : String)
    (hf : scene.page.document.Forest) (hs : scene.page.Seated)
    (hname : ∀ c ∈ client.settings.vocabulary.viewId.toList, Selector.isNameChar c = true) :
    ∃ number, MemoryPage.Renumbered scene.page.document.size number (client.swapPushed scene html).1.page
        (client.swapPushed (client.swapPushed scene html).1 html).1.page ∧
      (client.swapPushed (client.swapPushed scene html).1 html).2 =
        (client.swapPushed scene html).2.map (PatchOutcome.renumber number) := by
  have hf' := (grows_of_changes (client.changes_swapPushed scene html)).forest hf
  cases hobstacle : client.pushObstacle? scene.page html with
  | some cause =>
    have herror := swapPushed_of_obstacle? hf hobstacle
    obtain ⟨-, hsame⟩ := untouched_of_error hf herror
    have herror' := swapPushed_of_obstacle? hf' (hsame.trans hobstacle)
    refine ⟨_, (untouched_of_error hf' herror').1.renumbered hf' _, ?_⟩
    rw [herror, herror']
    rfl
  | none =>
    obtain ⟨view, target, rest, e, next, h, heq⟩ := swapPushed_of_clear hf hobstacle
    obtain ⟨hcreatable, hreplaceable, -⟩ := pushObstacle?_eq_none_iff.1 hobstacle
    obtain ⟨others, hquery⟩ := h.query_first hf hname
    rw [← query_scan _ [e]] at hquery
    have hrefused := (refused_of_binds (client.binds_scan next [e])).trans (h.edited hf).refused
    have hobstacle' : client.pushObstacle? (client.scan next [e]).1.page html = none := by
      rw [← hrefused] at hcreatable hreplaceable
      exact pushObstacle?_eq_none_iff.2 ⟨hcreatable, hreplaceable, view, e, others, h.viewId, hquery⟩
    rw [heq] at hf' ⊢
    dsimp only at hf' ⊢
    obtain ⟨view', target', rest', e', next', h', heq'⟩ := swapPushed_of_clear hf' hobstacle'
    obtain rfl := Option.some.inj (h.viewId.symm.trans h'.viewId)
    obtain ⟨rfl, rfl⟩ := List.cons.inj (Except.ok.inj (hquery.symm.trans h'.query))
    obtain ⟨number, hnumber, hrenumbered⟩ := h.renumbered h' hf hs
    rw [heq']
    dsimp only
    refine ⟨number, hrenumbered, ?_⟩
    simp [Except.map, PatchOutcome.renumber, hnumber]

end Client

end PageBindings
