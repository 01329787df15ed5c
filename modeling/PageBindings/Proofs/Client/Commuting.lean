import PageBindings.Proofs.Client.Grafting

/-!
# Patches that commute

Two patches are independent if neither is for an element that the other one is for, takes away or puts in
(`Amendment.Spares`).  Then neither changes what the other one is for (`query_amend`), each is the graft that it would
be without the other, and grafts that hit different elements commute: in either order the patches have the same
outcomes and leave pages of the same shape (`amend_comm`).
-/

namespace PageBindings

/-- A patch that a client is asked for. -/
structure Amendment where
  kind : PatchKind
  selector : String
  fragment : Option String

/-- Patches a page as asked, and binds what that has put in. -/
def Client.amend (client : Client MemoryPage) (scene : Scene MemoryPage) (a : Amendment) :
    Scene MemoryPage × Except PatchError PatchOutcome :=
  client.patch scene a.kind a.selector a.fragment

/-- Whether an element matches a selector. -/
def Document.Matches (d : Document) (selector : String) (n : NodeId) : Prop :=
  ∃ conditions ∈ Selector.parse? selector, d.isMatch conditions n = true

instance (d : Document) (selector : String) (n : NodeId) : Decidable (d.Matches selector n) :=
  inferInstanceAs (Decidable (∃ conditions ∈ Selector.parse? selector, d.isMatch conditions n = true))

namespace Amendment

/-- The patch is for the element: one of the document that matches the selector. -/
def Hits (a : Amendment) (page : MemoryPage) (n : NodeId) : Prop :=
  page.document.ProperlyAbove Document.root n ∧ page.document.Matches a.selector n

/-- The first patch is for no element that the second one is for, takes none of these away and puts none in. -/
structure Spares (a b : Amendment) (page : MemoryPage) : Prop where
  apart {n : NodeId} (ha : a.Hits page n) : ¬ b.Hits page n
  outside {n m : NodeId} (hkind : a.kind = .swap ∨ a.kind = .remove) (ha : a.Hits page n)
    (hm : page.document.Above n m) : ¬ page.document.Matches b.selector m
  fresh {html : String} {e n : NodeId} {page' : MemoryPage} (hkind : a.kind.creates = true)
    (hfragment : a.fragment = some html) (hcreate : page.create html = .ok (some e, page'))
    (hn : page'.document.Above e n) : ¬ page'.document.Matches b.selector n

/-- What comes of the patch, if it has targets. -/
def verdict (a : Amendment) (refused : List MemoryPage.Capability) : Except PatchError PatchKind :=
  match MemoryPage.obstacle? refused a.kind a.fragment with
  | none => .ok a.kind
  | some cause => .error cause

/-- What the patch of a client does to the tree of a document where it has the given targets. -/
def graft (a : Amendment) (client : Client MemoryPage) (refused : List MemoryPage.Capability)
    (targets : List NodeId) : Graft Features :=
  (client.planting refused a.kind a.fragment).graft
    (if (MemoryPage.obstacle? refused a.kind a.fragment).isNone then targets else [])

variable {a b : Amendment} {page page' : MemoryPage} {known : Nat} {targets : List NodeId} {n : NodeId}
  {client : Client MemoryPage} {refused : List MemoryPage.Capability}

theorem mem_query_iff (hf : page.document.Forest) (hquery : Page.query page none a.selector = .ok targets) :
    n ∈ targets ↔ a.Hits page n := by
  simp only [Page.query, MemoryPage.query] at hquery
  unfold Hits Document.Matches
  split at hquery
  · simp at hquery
  · rename_i conditions hparse
    obtain rfl := Except.ok.inj hquery
    rw [hparse]
    simp only [Document.query, List.mem_filter, Option.getD_none, hf.mem_descendants_iff, Option.mem_some,
      exists_eq_left']

theorem exists_query (hf : page.document.Forest) (h : ∃ n, a.Hits page n) :
    ∃ target rest, Page.query page none a.selector = .ok (target :: rest) := by
  obtain ⟨n, hn, conditions, hparse, hmatch⟩ := h
  have hquery := MemoryPage.query_of_parse? (Option.mem_def.1 hparse) page
  have hmem := (mem_query_iff hf hquery).2 ⟨hn, conditions, hparse, hmatch⟩
  obtain ⟨target, rest, heq⟩ := List.exists_cons_of_ne_nil (List.ne_nil_of_mem hmem)
  exact ⟨target, rest, heq ▸ hquery⟩

theorem Hits.lt_size (h : a.Hits page n) : n < page.document.size := by
  obtain ⟨p, hp, -⟩ := Document.properlyAbove_iff.1 h.1
  exact Document.lt_size_of_parent? hp

theorem exists_number_of_hit {features : Features} (h : (a.graft client refused targets).hit features = true) :
    ∃ n ∈ targets, features.number = some n := by
  obtain ⟨-, hnumber⟩ := (Bool.and_eq_true _ _).mp h
  cases hn : features.number with
  | none => simp [hn] at hnumber
  | some n =>
    rw [hn] at hnumber
    refine ⟨n, ?_, rfl⟩
    split at hnumber
    · simpa using hnumber
    · simp at hnumber

theorem not_hit_of_hit {other : Client MemoryPage} {targets' : List NodeId} (h : ∀ t ∈ targets, t ∉ targets')
    {features : Features} (hhit : (a.graft client refused targets).hit features = true) :
    (b.graft other refused targets').hit features = false := by
  rw [Bool.eq_false_iff]
  intro hhit'
  obtain ⟨n, hn, hnumber⟩ := exists_number_of_hit hhit
  obtain ⟨m, hm, hnumber'⟩ := exists_number_of_hit hhit'
  obtain rfl := Option.some.inj (hnumber.symm.trans hnumber')
  exact h n hn hm

theorem scion_graft (a b : Amendment) (client other : Client MemoryPage) (refused : List MemoryPage.Capability)
    (targets targets' : List NodeId) :
    (a.graft client refused targets).scion.graft (b.graft other refused targets') =
      [(a.graft client refused targets).scion] := by
  refine Tree.graft_of_not_hit fun features hmem => ?_
  rw [Bool.eq_false_iff]
  intro hhit
  obtain ⟨n, -, hn⟩ := exists_number_of_hit hhit
  have hnone := Client.number_planting client refused a.kind a.fragment features hmem
  simp [hn] at hnone

end Amendment

/-! ### One patch -/

variable {client other : Client MemoryPage} {scene : Scene MemoryPage} {a b : Amendment} {known : Nat}
  {target : NodeId} {rest : List NodeId}

/-- A page before a patch: a forest, with marks and listeners on its nodes only. -/
structure MemoryPage.Sturdy (page : MemoryPage) (known : Nat) : Prop where
  forest : page.document.Forest
  seated : page.Seated
  known_le : known ≤ page.document.size

namespace Client

theorem sturdy_amend (h : scene.page.Sturdy known) (client : Client MemoryPage) (a : Amendment) :
    (client.amend scene a).1.page.Sturdy known ∧
      (client.amend scene a).1.page.refused = scene.page.refused := by
  have hchanges := changes_patch client scene a.kind a.selector a.fragment
  have hgrows := grows_of_changes hchanges
  refine ⟨⟨hgrows.forest h.forest, seated_of_changes hchanges h.seated, ?_⟩, refused_of_changes hchanges⟩
  exact Nat.le_trans h.known_le hgrows.size_le

/-- A patch with targets has the outcome that it has with any targets, and is a graft. -/
theorem amend_grafts (client : Client MemoryPage) (h : scene.page.Sturdy known) (hkind : a.kind ≠ .reset)
    (hquery : Page.query scene.page none a.selector = .ok (target :: rest)) (ht : ∀ t ∈ target :: rest, t < known) :
    (client.amend scene a).2.map PatchOutcome.kind = a.verdict scene.page.refused ∧
      (scene.page.shape known).graft (a.graft client scene.page.refused (target :: rest)) =
        [(client.amend scene a).1.page.shape known] ∧
      ∀ n < scene.page.document.size,
        (client.amend scene a).1.page.features known n = scene.page.features known n := by
  unfold amend Amendment.verdict Amendment.graft
  cases hobstacle : MemoryPage.obstacle? scene.page.refused a.kind a.fragment with
  | none =>
    obtain ⟨⟨inserted, hok⟩, hgraft, hold⟩ := patch_of_clear h.forest h.seated hkind hquery h.known_le ht hobstacle
    rw [hok]
    exact ⟨rfl, hgraft, hold⟩
  | some cause =>
    obtain ⟨herror, hpage⟩ := patch_of_obstacle? h.forest hquery hobstacle
    rw [herror, hpage]
    refine ⟨rfl, Tree.graft_of_not_hit fun features _ => ?_, fun _ _ => rfl⟩
    show Planting.hits _ [] features = false
    unfold Planting.hits
    cases features.number <;> simp

end Client

/-! ### What the other patch is for -/

private theorem eq_of_map_number {xs ys : List NodeId} (hys : ∀ y ∈ ys, y < known)
    (h : xs.map (fun x => if x < known then some x else none) = ys.map fun y => if y < known then some y else none) :
    xs = ys := by
  induction xs generalizing ys with
  | nil => exact (List.map_eq_nil_iff.1 h.symm).symm
  | cons x xs ih =>
    cases ys with
    | nil => simp at h
    | cons y ys =>
      rw [List.forall_mem_cons] at hys
      rw [List.map_cons, List.map_cons, List.cons.injEq, if_pos hys.1] at h
      have hx : x = y := by
        have h := h.1
        split at h
        · exact Option.some.inj h
        · simp at h
      rw [hx, ih hys.2 h.2]

/-- A graft that neither takes away nor puts in what matches leaves what a search finds. -/
private theorem query_of_graft {g : Graft Features} {page page' : MemoryPage} {conditions : Selector}
    (hf : page.document.Forest) (hf' : page'.document.Forest) (hknown : known = page.document.size)
    (hgraft : (page.shape known).graft g = [page'.shape known])
    (hroot : page'.features known Document.root = page.features known Document.root)
    (hcut : g.clears = true → ∀ n m, page.document.Above Document.root n → g.hit (page.features known n) = true →
      page.document.Above n m → page.document.isMatch conditions m = false)
    (hscion : g.kind.creates = true → ∀ features ∈ g.scion.labels, features.isMatch conditions = false) :
    page'.document.query Document.root conditions = page.document.query Document.root conditions := by
  -- the features that match are the same, in the same order
  have hlabels : ((page'.shape known).labels.filter fun f => f.isMatch conditions) =
      (page.shape known).labels.filter fun f => f.isMatch conditions := by
    have hspared := Tree.filter_labels_graft (p := fun f => f.isMatch conditions) hscion (page.shape known)
    rw [hgraft, List.flatMap_singleton] at hspared
    rw [hspared]
    refine hf.filter_spared fun hclears n m hn hhit hm => ?_
    rw [MemoryPage.isMatch_features]
    exact hcut hclears n m hn hhit hm
  -- and so are the nodes that they are features of, since they all have numbers
  have hnodes : (Document.root :: page'.document.descendants Document.root).filter
      (page'.document.isMatch conditions) =
      (Document.root :: page.document.descendants Document.root).filter (page.document.isMatch conditions) := by
    refine eq_of_map_number (fun y hy => (?_ : y < known)) ?_
    · rw [hknown]
      exact (hf.mem_cons_descendants_iff.1 (List.mem_filter.1 hy).1).lt_size hf.root_lt_size
    · unfold MemoryPage.shape at hlabels
      rw [hf.labels_tree, hf'.labels_tree, List.filter_map, List.filter_map] at hlabels
      simp only [Function.comp_def, MemoryPage.isMatch_features] at hlabels
      have hnumbers := congrArg (List.map Features.number) hlabels
      rwa [List.map_map, List.map_map] at hnumbers
  have hmatch : page'.document.isMatch conditions Document.root = page.document.isMatch conditions Document.root := by
    rw [← MemoryPage.isMatch_features page' known, hroot, MemoryPage.isMatch_features]
  unfold Document.query
  rw [List.filter_cons, List.filter_cons, hmatch] at hnodes
  split at hnodes
  · exact (List.cons.inj hnodes).2
  · exact hnodes

private theorem isMatch_scion {conditions : Selector} (hf : scene.page.document.Forest)
    (hparse : Selector.parse? b.selector = some conditions) (hspares : a.Spares b scene.page)
    (hobstacle : MemoryPage.obstacle? scene.page.refused a.kind a.fragment = none) (hkind : a.kind.creates = true) :
    ∀ features ∈ (client.planting scene.page.refused a.kind a.fragment).scion.labels,
      features.isMatch conditions = false := by
  obtain ⟨html, hfragment, hallowed, has⟩ := MemoryPage.exists_html_of_obstacle? hkind hobstacle
  obtain ⟨hsource, hhead⟩ := (Client.suits_planting client scene.page.refused a.kind a.fragment).read hfragment has
  -- the page makes a copy of the tree that is put in
  obtain ⟨k, -, hfirst, hcopy⟩ := Document.exists_copy_read hf hhead
  obtain ⟨handedOut, hcreate⟩ := MemoryPage.create_eq_some hallowed hfirst
  have hroot := Document.root_read (List.mem_of_mem_head? hhead)
  have hs := Document.forest_read_empty html
  have hread := (Document.grows_read scene.page.document html).forest hf
  intro features hmem
  unfold Planting.scion at hmem
  rw [hsource] at hmem
  obtain ⟨j, hj, rfl⟩ := hs.mem_labels_tree_iff.1 hmem
  have habove := (hcopy.above_iff hs hread hroot.1 hroot.2.1).2 ⟨j, hj, rfl⟩
  have hunmatched := hspares.fresh hkind hfragment hcreate habove
  have hbare := hcopy.bare? (hs.pos_of_above hroot.1 hj) (hj.lt_size hroot.2.1)
  rw [Client.isMatch_planting, hsource, Bool.eq_false_iff]
  intro hmatch
  refine hunmatched ⟨conditions, hparse, ?_⟩
  rw [← hmatch]
  exact Document.isMatch_congr (Document.tag_congr hbare) (Document.attributes_congr hbare) conditions

/-- A patch leaves what an independent one is for. -/
theorem query_amend (client : Client MemoryPage) (hf : scene.page.document.Forest) (hs : scene.page.Seated)
    (hkind : a.kind ≠ .reset) (hquery : Page.query scene.page none a.selector = .ok (target :: rest))
    (hspares : a.Spares b scene.page) :
    Page.query (client.amend scene a).1.page none b.selector = Page.query scene.page none b.selector := by
  have ht : ∀ t ∈ target :: rest, t < scene.page.document.size :=
    fun t hmem => ((Amendment.mem_query_iff hf hquery).1 hmem).lt_size
  cases hobstacle : MemoryPage.obstacle? scene.page.refused a.kind a.fragment with
  | some cause =>
    have hpage : (client.amend scene a).1.page = scene.page := (Client.patch_of_obstacle? hf hquery hobstacle).2
    rw [hpage]
  | none =>
    have hsturdy : scene.page.Sturdy scene.page.document.size := ⟨hf, hs, Nat.le_refl _⟩
    obtain ⟨-, hgraft, hold⟩ := Client.amend_grafts client hsturdy hkind hquery ht
    have hf' := (Client.sturdy_amend hsturdy client a).1.forest
    show MemoryPage.query _ none b.selector = MemoryPage.query _ none b.selector
    unfold MemoryPage.query
    cases hparse : Selector.parse? b.selector with
    | none => rfl
    | some conditions =>
      refine congrArg Except.ok (query_of_graft hf hf' rfl hgraft (hold _ hf.root_lt_size) ?_ ?_)
      -- what is hit has the number of a target, and nothing below a target matches
      · intro hclears n m _ hhit hm
        obtain ⟨t, htmem, hnumber⟩ := Amendment.exists_number_of_hit hhit
        have hn : n = t := by
          unfold MemoryPage.features at hnumber
          dsimp only at hnumber
          split at hnumber
          · exact Option.some.inj hnumber
          · simp at hnumber
        have hcuts : a.kind = .swap ∨ a.kind = .remove := by
          simpa [Graft.clears, Amendment.graft, Planting.graft, Client.planting] using hclears
        rw [Bool.eq_false_iff]
        intro hmatch
        have ha : a.Hits scene.page n := (Amendment.mem_query_iff hf hquery).1 (hn ▸ htmem)
        exact hspares.outside hcuts ha hm ⟨conditions, hparse, hmatch⟩
      · exact fun hcreates => isMatch_scion hf hparse hspares hobstacle hcreates

/-! ### Two patches -/

/--
Patches that are independent of each other commute.  Whichever comes first, each of them succeeds or fails as it does
on its own, and afterwards the document has the same elements at the same places, with the same attributes, texts,
values and numbers of listeners, and with the same numbers if they were there before.  What was there before and is
not part of the document has the same features, too.
-/
theorem amend_comm (hf : scene.page.document.Forest) (hs : scene.page.Seated) (hka : a.kind ≠ .reset)
    (hkb : b.kind ≠ .reset) (ha : ∃ n, a.Hits scene.page n) (hb : ∃ n, b.Hits scene.page n)
    (hab : a.Spares b scene.page) (hba : b.Spares a scene.page) :
    (other.amend (client.amend scene a).1 b).2.map PatchOutcome.kind =
        (other.amend scene b).2.map PatchOutcome.kind ∧
      (client.amend (other.amend scene b).1 a).2.map PatchOutcome.kind =
        (client.amend scene a).2.map PatchOutcome.kind ∧
      (other.amend (client.amend scene a).1 b).1.page.shape scene.page.document.size =
        (client.amend (other.amend scene b).1 a).1.page.shape scene.page.document.size ∧
      ∀ n < scene.page.document.size,
        (other.amend (client.amend scene a).1 b).1.page.features scene.page.document.size n =
          (client.amend (other.amend scene b).1 a).1.page.features scene.page.document.size n := by
  have hsturdy : scene.page.Sturdy scene.page.document.size := ⟨hf, hs, Nat.le_refl _⟩
  obtain ⟨first, rest, hqa⟩ := Amendment.exists_query hf ha
  obtain ⟨first', rest', hqb⟩ := Amendment.exists_query hf hb
  have hta : ∀ t ∈ first :: rest, a.Hits scene.page t := fun t => (Amendment.mem_query_iff hf hqa).1
  have htb : ∀ t ∈ first' :: rest', b.Hits scene.page t := fun t => (Amendment.mem_query_iff hf hqb).1
  obtain ⟨hsa, hra⟩ := Client.sturdy_amend hsturdy client a
  obtain ⟨hsb, hrb⟩ := Client.sturdy_amend hsturdy other b
  -- each of them on its own, and each of them after the other one
  obtain ⟨hva, hga, hfa⟩ := Client.amend_grafts client hsturdy hka hqa fun t ht => (hta t ht).lt_size
  obtain ⟨hvb, hgb, hfb⟩ := Client.amend_grafts other hsturdy hkb hqb fun t ht => (htb t ht).lt_size
  have hqab := (query_amend client hf hs hka hqa hab).trans hqb
  have hqba := (query_amend other hf hs hkb hqb hba).trans hqa
  obtain ⟨hvab, hgab, hfab⟩ := Client.amend_grafts other hsa hkb hqab fun t ht => (htb t ht).lt_size
  obtain ⟨hvba, hgba, hfba⟩ := Client.amend_grafts client hsb hka hqba fun t ht => (hta t ht).lt_size
  rw [hra] at hvab hgab
  rw [hrb] at hvba hgba
  refine ⟨hvab.trans hvb.symm, hvba.trans hva.symm, ?_, fun n hn => ?_⟩
  · have hapart : ∀ t ∈ first :: rest, t ∉ first' :: rest' := fun t ht ht' => hab.apart (hta t ht) (htb t ht')
    have hcomm := Tree.graft_comm (fun _ => Amendment.not_hit_of_hit hapart)
      (Amendment.scion_graft a b client other scene.page.refused (first :: rest) (first' :: rest'))
      (Amendment.scion_graft b a other client scene.page.refused (first' :: rest') (first :: rest))
      (scene.page.shape scene.page.document.size)
    rw [hga, hgb, List.flatMap_singleton, List.flatMap_singleton, hgab, hgba] at hcomm
    exact List.head_eq_of_cons_eq hcomm
  · calc (other.amend (client.amend scene a).1 b).1.page.features scene.page.document.size n
        = scene.page.features scene.page.document.size n :=
          (hfab n (Nat.lt_of_lt_of_le hn hsa.known_le)).trans (hfa n hn)
      _ = (client.amend (other.amend scene b).1 a).1.page.features scene.page.document.size n :=
          ((hfba n (Nat.lt_of_lt_of_le hn hsb.known_le)).trans (hfb n hn)).symm

/-! ### Nested targets -/

/-- That a patch spares another one can be computed, from what is found below its targets and in its fragment. -/
theorem Amendment.spares_of_query {page : MemoryPage} {as bs : List NodeId} (hf : page.document.Forest)
    (hqa : Page.query page none a.selector = .ok as) (hqb : Page.query page none b.selector = .ok bs)
    (hapart : ∀ n ∈ as, n ∉ bs)
    (houtside : a.kind = .swap ∨ a.kind = .remove → ∀ n ∈ as, ∀ m ∈ n :: page.document.descendants n,
      ¬ page.document.Matches b.selector m)
    (hfresh : ∀ html ∈ a.fragment, ∀ e ∈ (page.document.read html).2.head?,
      ∀ n ∈ e :: (page.document.read html).1.descendants e, ¬ (page.document.read html).1.Matches b.selector n) :
    a.Spares b page where
  apart ha hb := hapart _ ((mem_query_iff hf hqa).2 ha) ((mem_query_iff hf hqb).2 hb)
  outside hkind ha hm := houtside hkind _ ((mem_query_iff hf hqa).2 ha) _ (hf.mem_cons_descendants_iff.2 hm)
  fresh {html e n page'} _ hfragment hcreate hn := by
    obtain ⟨-, he, handedOut, rfl⟩ := MemoryPage.create_eq_ok hcreate
    have hread := (Document.grows_read page.document html).forest hf
    exact hfresh html hfragment e he.symm n (hread.mem_cons_descendants_iff.2 hn)

/-- A list with one item. -/
def itemized : Scene MemoryPage :=
  { page := MemoryPage.withBody "<ul><li class='old'>1</li></ul>" }

/-- Adds an item to the list that goes away on a click. -/
def growth : Amendment :=
  { kind := .append, selector := "ul"
    fragment := some "<li silta-events='\x7b\"click\":[[\"remove\",\x7b\"target\":\"ul\"\x7d]]\x7d'>2</li>" }

/-- Puts another item in the place of the old one. -/
def renewal : Amendment :=
  { kind := .swap, selector := ".old", fragment := some "<li>3</li>" }

/-- A client with nothing but its defaults. -/
def plainClient : Client MemoryPage :=
  { ref := 0, settings := {}, id := "client-0", resolvers := .empty, channel := .idle }

/-- The item that is renewed is in the list that grows, and only the numbers of the new items tell what came first. -/
theorem amend_comm_nested :
    (growth.Hits itemized.page 2 ∧ renewal.Hits itemized.page 3) ∧
      (growth.Spares renewal itemized.page ∧ renewal.Spares growth itemized.page) ∧
      (plainClient.amend (plainClient.amend itemized growth).1 renewal).1.page.document.children 2 = [5, 4] ∧
      (plainClient.amend (plainClient.amend itemized renewal).1 growth).1.page.document.children 2 = [4, 5] ∧
      (plainClient.amend (plainClient.amend itemized growth).1 renewal).1.page.shape 4 =
        (plainClient.amend (plainClient.amend itemized renewal).1 growth).1.page.shape 4 := by
  have hf : itemized.page.document.Forest := Document.forest_withBody "<ul><li class='old'>1</li></ul>"
  have hseated : itemized.page.Seated := MemoryPage.seated_withBody _
  have hgrowth : Page.query itemized.page none growth.selector = .ok [2] := by decide +kernel
  have hrenewal : Page.query itemized.page none renewal.selector = .ok [3] := by decide +kernel
  have hspares : growth.Spares renewal itemized.page :=
    Amendment.spares_of_query hf hgrowth hrenewal (by decide) (by decide +kernel) (by decide +kernel)
  have hspares' : renewal.Spares growth itemized.page :=
    Amendment.spares_of_query hf hrenewal hgrowth (by decide) (by decide +kernel) (by decide +kernel)
  have hhits : growth.Hits itemized.page 2 := (Amendment.mem_query_iff hf hgrowth).1 List.mem_cons_self
  have hhits' : renewal.Hits itemized.page 3 := (Amendment.mem_query_iff hf hrenewal).1 List.mem_cons_self
  have hsize : itemized.page.document.size = 4 := by decide +kernel
  refine ⟨⟨hhits, hhits'⟩, ⟨hspares, hspares'⟩, by decide +kernel, by decide +kernel, ?_⟩
  rw [← hsize]
  exact (amend_comm hf hseated (by decide) (by decide) ⟨2, hhits⟩ ⟨3, hhits'⟩ hspares hspares').2.2.1

end PageBindings
