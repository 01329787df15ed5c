import PageBindings.Proofs.Document.Copies
import PageBindings.Proofs.Markup.Rendering

/-!
# Reading what was written

The trees of elements that are written as markup are the trees that are read from it (`read_markup`): in any document
the new roots are those of the trees in order, with the same tags, attributes, texts and children
(`Document.Depicts`).  The builder takes up the tokens of a tree as a whole: what is open before is open after it, and
the tree has been added to the innermost open element or to the roots (`Builder.Takes`).
-/

namespace PageBindings

namespace Markup.Element

/-- The element as a node without links. -/
def node (e : Element) : Node :=
  { tag := e.tag, attributes := e.attributes, text := e.text }

/-- An attribute of the element; of several with one name the first counts. -/
def attribute? (e : Element) (name : String) : Option String :=
  (e.attributes.find? (·.1 == name)).map (·.2)

end Markup.Element

namespace Document

open Markup (Element)

/-- From the node `n` down the document has this tree, in nodes from `base` on. -/
inductive Depicts (base : NodeId) (d : Document) : NodeId → Tree Element → Prop
  | node {n : NodeId} {e : Element} {children : List (Tree Element)} (new : base ≤ n)
      (written : d.bare? n = some e.node) (below : List.Forall₂ (Depicts base d) (d.children n) children) :
      Depicts base d n (.node e children)

variable {base base' c m n p : NodeId} {d d' : Document} {e : Element} {children : List (Tree Element)}
  {t : Tree Element}

theorem Depicts.attribute?_eq (h : Depicts base d n (.node e children)) (name : String) :
    d.attribute? n name = e.attribute? name := by
  cases h with
  | node _ written _ =>
    have hattributes : d.attributes n = e.attributes := by
      unfold attributes
      rw [← map_bare? (fun _ => rfl), written]
      rfl
    unfold attribute? Element.attribute?
    rw [hattributes]

/-- Every element of the tree is that of some node. -/
theorem Depicts.exists_of_mem_labels (h : Depicts base d n t) (he : e ∈ t.labels) :
    ∃ m children, base ≤ m ∧ Depicts base d m (.node e children) := by
  induction t using Tree.induction generalizing n with
  | node label children ih =>
    cases h with
    | node new written below =>
      rw [Tree.labels_node, List.mem_cons, List.mem_flatMap] at he
      rcases he with rfl | ⟨t, ht, he⟩
      · exact ⟨n, children, new, .node new written below⟩
      · obtain ⟨i, hi, rfl⟩ := List.mem_iff_getElem.1 ht
        exact ih _ ht (below.get (below.length_eq.symm ▸ hi) hi) he

/-- A tree stays as long as nobody touches its nodes. -/
theorem Depicts.congr (h : Depicts base d n t) (hbase : base' ≤ base)
    (hkept : ∀ m, base ≤ m → m < d.size → d'.node? m = d.node? m) : Depicts base' d' n t := by
  induction t using Tree.induction generalizing n with
  | node label children ih =>
    cases h with
    | node new written below =>
      have hlt : n < d.size := by
        by_contra hle
        have hnone := node?_eq_none_iff.2 (Nat.le_of_not_lt hle)
        simp [bare?, hnone] at written
      have hnode := hkept n new hlt
      have hchildren : d'.children n = d.children n := by
        unfold Document.children
        rw [hnode]
      refine .node (Nat.le_trans hbase new) ?_ ?_
      · unfold bare?
        rw [hnode]
        exact written
      · rw [hchildren]
        refine List.forall₂_iff_zip.2 ⟨below.length_eq, fun hmem => ?_⟩
        exact ih _ (List.of_mem_zip hmem).2 ((List.forall₂_iff_zip.1 below).2 hmem)

end Document

namespace Markup.Builder

open Document

/-- The innermost open element has got the children, or the roots have if no element is open. -/
def Houses (b b' : Builder) (nodes : List NodeId) : Prop :=
  match b.stack with
  | [] => b'.roots = nodes.reverse ++ b.roots
  | p :: _ => b'.roots = b.roots ∧
      b'.document.node? p = (b.document.node? p).map fun node => { node with children := node.children ++ nodes }

/-- The builder has taken up trees: they are in new nodes, and nothing else has changed. -/
structure Takes (b : Builder) (forest : List (Tree Element)) (b' : Builder) : Prop where
  stack : b'.stack = b.stack
  size : b'.document.size = b.document.size + (forest.flatMap Tree.labels).length
  kept {m : NodeId} (hm : m < b.document.size) (htop : m ∉ b.stack.head?) : b'.document.node? m = b.document.node? m
  housed : ∃ nodes, Houses b b' nodes ∧ List.Forall₂ (Depicts b.document.size b'.document) nodes forest

variable {b b' b'' : Builder} {forest forest' : List (Tree Element)} {e : Element} {children : List (Tree Element)}
  {t : Tree Element} {nodes nodes' : List NodeId}

theorem Houses.append (h : Houses b b' nodes) (h' : Houses b' b'' nodes') (hstack : b'.stack = b.stack) :
    Houses b b'' (nodes ++ nodes') := by
  unfold Houses at h h' ⊢
  rw [hstack] at h'
  split
  · rename_i hs
    rw [hs] at h h'
    rw [h', h, List.reverse_append, List.append_assoc]
  · rename_i p outer hs
    rw [hs] at h h'
    refine ⟨h'.1.trans h.1, ?_⟩
    rw [h'.2, h.2, Option.map_map]
    refine congrArg (fun f => Option.map f (b.document.node? p)) (funext fun node => ?_)
    simp

theorem Takes.size_le (h : Takes b forest b') : b.document.size ≤ b'.document.size := by
  rw [h.size]
  exact Nat.le_add_right _ _

theorem Takes.nil (b : Builder) : Takes b [] b where
  stack := rfl
  size := rfl
  kept _ _ := rfl
  housed := by
    refine ⟨[], ?_, .nil⟩
    unfold Houses
    split
    · rfl
    · simp

theorem Takes.append (h : Takes b forest b') (h' : Takes b' forest' b'')
    (hopen : ∀ p ∈ b.stack, p < b.document.size) : Takes b (forest ++ forest') b'' where
  stack := h'.stack.trans h.stack
  size := by rw [h'.size, h.size, List.flatMap_append, List.length_append, Nat.add_assoc]
  kept hm htop := by
    rw [h'.kept (Nat.lt_of_lt_of_le hm h.size_le) (by rwa [h.stack]), h.kept hm htop]
  housed := by
    obtain ⟨nodes, hnodes, hdepicts⟩ := h.housed
    obtain ⟨nodes', hnodes', hdepicts'⟩ := h'.housed
    refine ⟨nodes ++ nodes', hnodes.append hnodes' h.stack, List.rel_append ?_ ?_⟩
    · -- the second part is made below an old element, and leaves the nodes of the first alone
      refine hdepicts.imp fun n t hn => hn.congr (Nat.le_refl _) fun m hnew hold => h'.kept hold fun htop => ?_
      rw [h.stack] at htop
      exact absurd (hopen m (List.mem_of_mem_head? htop)) (Nat.not_lt.2 hnew)
    · exact hdepicts'.imp fun n t hn => hn.congr h.size_le fun _ _ _ => rfl

/-! ### One element -/

/-- The builder has opened an element, in a new node without content. -/
structure Opens (b : Builder) (e : Element) (b' : Builder) : Prop where
  stack : b'.stack = if isVoid e.tag then b.stack else b.document.size :: b.stack
  size : b'.document.size = b.document.size + 1
  new : ∃ parent, b'.document.node? b.document.size = some { tag := e.tag, attributes := e.attributes, parent }
  kept {m : NodeId} (hm : m < b.document.size) (htop : m ∉ b.stack.head?) : b'.document.node? m = b.document.node? m
  housed : Houses b b' [b.document.size]

theorem opens_step (e : Element) (hopen : ∀ p ∈ b.stack, p < b.document.size) :
    Opens b e (b.step (.opening e.tag e.attributes false)) := by
  have hnone := parent?_add_size b.document e.tag e.attributes
  unfold Builder.step Builder.openElement
  cases hs : b.stack with
  | nil =>
    refine ⟨by simp [hs], size_add _ _ _, ⟨none, ?_⟩, fun hm _ => ?_, ?_⟩
    · rw [node?_add, if_pos rfl]
    · rw [node?_add, if_neg (Nat.ne_of_lt hm)]
    · unfold Houses
      rw [hs]
      rfl
  | cons p outer =>
    have hp : p < b.document.size := hopen p (by simp [hs])
    have hne : p ≠ b.document.size := Nat.ne_of_lt hp
    refine ⟨by simp [hs], by rw [size_attachLast, size_add], ⟨some p, ?_⟩, fun hm htop => ?_, ?_⟩
    · rw [node?_attachLast hnone hne, if_pos rfl, node?_add, if_pos rfl]
      rfl
    · rw [hs] at htop
      rw [node?_attachLast hnone hne, if_neg (Nat.ne_of_lt hm), if_neg fun hmp => htop (by simp [hmp]), node?_add,
        if_neg (Nat.ne_of_lt hm)]
    · unfold Houses
      rw [hs]
      refine ⟨rfl, ?_⟩
      dsimp only
      rw [node?_attachLast hnone hne, if_neg hne, if_pos rfl, node?_add, if_neg hne]

/-- Text goes into the innermost open element. -/
theorem steps_textTokens {n : NodeId} {outer : List NodeId} (hs : b.stack = n :: outer) (text : String) :
    ((textTokens text).foldl Builder.step b).stack = b.stack ∧
      ((textTokens text).foldl Builder.step b).roots = b.roots ∧
      ((textTokens text).foldl Builder.step b).document.size = b.document.size ∧
      ∀ m, ((textTokens text).foldl Builder.step b).document.node? m =
        if n = m then (b.document.node? m).map fun node => { node with text := node.text ++ text }
        else b.document.node? m := by
  by_cases hempty : text = ""
  · subst hempty
    refine ⟨rfl, rfl, rfl, fun m => ?_⟩
    show b.document.node? m = _
    simp
  · have htokens : textTokens text = [.text text] := if_neg (by simpa using hempty)
    have hstep : b.step (.text text) = { b with document := b.document.addText n text } := by
      unfold Builder.step
      rw [hs]
    rw [htokens, List.foldl_cons, List.foldl_nil, hstep]
    exact ⟨rfl, rfl, size_modify _ _ _, fun m => node?_modify _ _ _ _⟩

/-- The innermost open element is closed by a tag of its name. -/
theorem step_closing {n : NodeId} {outer : List NodeId} {tag : String} (hs : b.stack = n :: outer)
    (htag : b.document.tag n = tag) : b.step (.closing tag) = { b with stack := outer } := by
  unfold Builder.step
  dsimp only
  rw [hs, closeElement, if_pos htag]
  rfl

theorem Houses.congr (h : Houses b b' nodes) (hopen : ∀ p ∈ b.stack, p < b.document.size)
    (hroots : b''.roots = b'.roots) (hnode : ∀ m < b.document.size, b''.document.node? m = b'.document.node? m) :
    Houses b b'' nodes := by
  unfold Houses at h ⊢
  split
  · rename_i hs
    rw [hs] at h
    rw [hroots, h]
  · rename_i p outer hs
    rw [hs] at h
    rw [hroots, hnode p (hopen p (by simp [hs]))]
    exact h

/-! ### All elements -/

theorem takes_flatMap {forest : List (Tree Element)}
    (h : ∀ t ∈ forest, ∀ b : Builder, (∀ p ∈ b.stack, p < b.document.size) →
      Takes b [t] ((tokensOf t).foldl Builder.step b)) (hopen : ∀ p ∈ b.stack, p < b.document.size) :
    Takes b forest ((forest.flatMap tokensOf).foldl Builder.step b) := by
  induction forest generalizing b with
  | nil => exact Takes.nil b
  | cons t rest ih =>
    rw [List.forall_mem_cons] at h
    have hfirst := h.1 b hopen
    have hopen' : ∀ p ∈ ((tokensOf t).foldl Builder.step b).stack,
        p < ((tokensOf t).foldl Builder.step b).document.size := by
      intro p hp
      rw [hfirst.stack] at hp
      exact Nat.lt_of_lt_of_le (hopen p hp) hfirst.size_le
    rw [List.flatMap_cons, List.foldl_append]
    exact hfirst.append (ih h.2 hopen') hopen

/-- An element has been taken up once the trees in it have, and it is closed again. -/
theorem Opens.takes (h : Opens b e b') (hopen : ∀ p ∈ b.stack, p < b.document.size) (hstack : b''.stack = b.stack)
    (hroots : b''.roots = b'.roots)
    (hsize : b''.document.size = b'.document.size + (children.flatMap Tree.labels).length)
    (hnode : ∀ m < b.document.size, b''.document.node? m = b'.document.node? m)
    (hdepicts : Depicts b.document.size b''.document b.document.size (.node e children)) :
    Takes b [.node e children] b'' where
  stack := hstack
  size := by
    rw [hsize, h.size, List.flatMap_singleton, Tree.labels_node, List.length_cons]
    omega
  kept hm htop := (hnode _ hm).trans (h.kept hm htop)
  housed := ⟨[b.document.size], h.housed.congr hopen hroots hnode, .cons hdepicts .nil⟩

/-- A void element is not left open, and nothing is in it. -/
theorem Opens.takes_void (h : Opens b e b') (hopen : ∀ p ∈ b.stack, p < b.document.size) (hvoid : isVoid e.tag = true)
    (htext : e.text = "") : Takes b [.node e []] b' := by
  obtain ⟨parent, hnew⟩ := h.new
  have hstack : b'.stack = b.stack := by
    rw [h.stack, if_pos hvoid]
  refine h.takes hopen hstack rfl rfl (fun _ _ => rfl) (.node (Nat.le_refl _) ?_ ?_)
  · unfold Document.bare? Node.bare Element.node
    rw [hnew, htext]
    rfl
  · unfold Document.children
    rw [hnew]
    exact .nil

/-- The text of an element goes into it, then its children, and then it is closed. -/
theorem Opens.takes_content (h : Opens b e b') (hopen : ∀ p ∈ b.stack, p < b.document.size)
    (hvoid : isVoid e.tag = false)
    (hchildren : ∀ b : Builder, (∀ p ∈ b.stack, p < b.document.size) →
      Takes b children ((children.flatMap tokensOf).foldl Builder.step b)) :
    Takes b [.node e children]
      ((textTokens e.text ++ (children.flatMap tokensOf ++ [Token.closing e.tag])).foldl Builder.step b') := by
  obtain ⟨parent, hnew⟩ := h.new
  have hs : b'.stack = b.document.size :: b.stack := by
    rw [h.stack, hvoid]
    rfl
  rw [List.foldl_append, List.foldl_append]
  obtain ⟨hs₁, hr₁, hn₁, hnode₁⟩ := steps_textTokens hs e.text
  generalize (textTokens e.text).foldl Builder.step b' = b₁ at hs₁ hr₁ hn₁ hnode₁ ⊢
  have hsize : b₁.document.size = b.document.size + 1 := hn₁.trans h.size
  have hle : b.document.size ≤ b₁.document.size := by omega
  have hopen₁ : ∀ p ∈ b₁.stack, p < b₁.document.size := by
    rw [hs₁, hs, hsize]
    exact List.forall_mem_cons.2 ⟨Nat.lt_succ_self _, fun p hp => Nat.lt_succ_of_lt (hopen p hp)⟩
  have htakes := hchildren b₁ hopen₁
  generalize (children.flatMap tokensOf).foldl Builder.step b₁ = b₂ at htakes ⊢
  -- the children are in the element, which is the innermost one that is open
  obtain ⟨nodes, hhoused, hdepicts⟩ := htakes.housed
  unfold Houses at hhoused
  rw [hs₁, hs] at hhoused
  obtain ⟨hr₂, hnode₂⟩ := hhoused
  rw [hnode₁, if_pos rfl, hnew] at hnode₂
  have hs₂ : b₂.stack = b.document.size :: b.stack := htakes.stack.trans (hs₁.trans hs)
  have htag : b₂.document.tag b.document.size = e.tag := by
    unfold Document.tag
    rw [hnode₂]
    rfl
  rw [List.foldl_cons, List.foldl_nil, step_closing hs₂ htag]
  refine h.takes hopen rfl (hr₂.trans hr₁) ?_ (fun m hm => ?_) (.node (Nat.le_refl _) ?_ ?_)
  · exact htakes.size.trans (by rw [hn₁])
  · have hne : b.document.size ≠ m := Nat.ne_of_gt hm
    show b₂.document.node? m = _
    rw [htakes.kept (Nat.lt_of_lt_of_le hm hle) (by simp [hs₁, hs, hne]), hnode₁, if_neg hne]
  · show b₂.document.bare? b.document.size = _
    unfold Document.bare? Node.bare Element.node
    rw [hnode₂]
    simp
  · show List.Forall₂ _ (b₂.document.children b.document.size) children
    have hnodes : b₂.document.children b.document.size = nodes := by
      unfold Document.children
      rw [hnode₂]
      rfl
    rw [hnodes]
    exact hdepicts.imp fun n t hn => hn.congr hle fun _ _ _ => rfl

theorem takes_tokensOf (h : isWritable t = true) (hopen : ∀ p ∈ b.stack, p < b.document.size) :
    Takes b [t] ((tokensOf t).foldl Builder.step b) := by
  induction t using Tree.induction generalizing b with
  | node e children ih =>
    obtain ⟨-, hvoid, hchildren⟩ := isWritable_node.1 h
    have hopens := opens_step e hopen
    rw [tokensOf_node, List.foldl_cons]
    cases hv : isVoid e.tag with
    | true =>
      obtain ⟨htext, rfl⟩ := hvoid hv
      exact hopens.takes_void hopen hv htext
    | false =>
      refine hopens.takes_content hopen hv fun b hb => ?_
      exact takes_flatMap (fun t ht b hb => ih t ht (hchildren t ht) hb) hb

end Markup.Builder

open Document Markup

variable {forest : List (Tree Element)}

/--
What was written as markup is read as the trees that it was written from, in the same order, into any document: with
the same tags, the same attributes in the same order, the same texts and the same children, in as many new nodes as
there are elements.  The old nodes stay as they are.  So every attribute is found with the value that was written,
whatever characters it consists of.
-/
theorem read_markup (d : Document) (h : ∀ t ∈ forest, isWritable t = true) :
    List.Forall₂ (Depicts d.size (d.read (markup forest)).1) (d.read (markup forest)).2 forest ∧
      (d.read (markup forest)).1.size = d.size + (forest.flatMap Tree.labels).length ∧
      (∀ n < d.size, (d.read (markup forest)).1.node? n = d.node? n) ∧
      ∀ e ∈ forest.flatMap Tree.labels, ∃ n, d.size ≤ n ∧
        ∀ name, (d.read (markup forest)).1.attribute? n name = e.attribute? name := by
  have htakes := Builder.takes_flatMap (b := { document := d, stack := [], roots := [] })
    (fun t ht b hb => Builder.takes_tokensOf (h t ht) hb) (by simp)
  rw [← tokens_markup h] at htakes
  obtain ⟨nodes, hroots, hdepicts⟩ := htakes.housed
  have hroots : (d.read (markup forest)).2 = nodes := by
    have heq : ((tokens (markup forest)).foldl Builder.step { document := d, stack := [], roots := [] }).roots =
        nodes.reverse ++ [] := hroots
    show List.reverse _ = nodes
    rw [heq, List.append_nil, List.reverse_reverse]
  have hforest : List.Forall₂ (Depicts d.size (d.read (markup forest)).1) (d.read (markup forest)).2 forest :=
    hroots ▸ hdepicts
  refine ⟨hforest, htakes.size, fun n hn => node?_read hn, fun e he => ?_⟩
  obtain ⟨t, ht, he⟩ := List.mem_flatMap.1 he
  obtain ⟨i, hi, rfl⟩ := List.mem_iff_getElem.1 ht
  obtain ⟨n, children, hnew, hn⟩ := (hforest.get (hforest.length_eq.symm ▸ hi) hi).exists_of_mem_labels he
  exact ⟨n, hnew, hn.attribute?_eq⟩

/-- Elements of one tag in each other, one attribute twice, and texts and values that look like markup. -/
def tangled : List (Tree Element) :=
  [.node { tag := "p", attributes := [("a\"<", ">"), ("events", "[\"&lt;\", '&amp;quot;'] \\ \n"), ("events", "")],
           text := "&amp;lt;<p>" }
      [.node { tag := "p", text := " " } [.node { tag := "p" } []],
        .node { tag := "br", attributes := [("id", "")] } []],
    .node { tag := "x-1", text := "'" } []]

/-- All comes back: the first of the two attributes counts, with its quotes and entities. -/
theorem read_markup_tangled :
    (∀ t ∈ tangled, isWritable t = true) ∧
      List.Forall₂ (Depicts 1 (Document.empty.read (markup tangled)).1) (Document.empty.read (markup tangled)).2
        tangled ∧
      (Document.empty.read (markup tangled)).1.size = 6 ∧
      ∃ n, (Document.empty.read (markup tangled)).1.attribute? n "events" =
        some "[\"&lt;\", '&amp;quot;'] \\ \n" := by
  have hwritable : ∀ t ∈ tangled, isWritable t = true := by decide +kernel
  obtain ⟨hforest, hsize, -, hattributes⟩ := read_markup Document.empty hwritable
  obtain ⟨n, -, hn⟩ := hattributes
    { tag := "p", attributes := [("a\"<", ">"), ("events", "[\"&lt;\", '&amp;quot;'] \\ \n"), ("events", "")],
      text := "&amp;lt;<p>" } (by decide +kernel)
  exact ⟨hwritable, hforest, hsize.trans (by decide +kernel), n, (hn "events").trans (by decide +kernel)⟩

end PageBindings
