import PageBindings.Proofs.Binding.Discovery
import PageBindings.Proofs.Page.Features

/-!
# Other text in an attribute of one element

Two documents may differ in nothing but the text of one attribute of one element (`Document.Reworded`).  Whatever the
two texts are, the same elements have the attribute, and so a search for the elements that declare bindings in it
finds the same ones (`Reworded.declaringElements`).  The search is for a selector that has the name of the attribute
between brackets.  If the name cannot stand there, the selector may ask for other attributes, but not for the text of
this one, since all names in a selector consist of name characters (`Selector.isNameChar_of_parse?`).
-/

namespace PageBindings

/-! ### What selectors read -/

/-- The attribute that a condition reads. -/
def Condition.attribute? : Condition → Option String
  | .tag _ => none
  | .id _ => some "id"
  | .inClass _ => some "class"
  | .has name => some name
  | .equals name _ => some name

namespace Selector

variable {cs rest : List Char} {condition : Condition} {conditions : Selector} {name : String}

private theorem isNameChar_of_readAttribute? (h : readAttribute? cs = some (condition, rest))
    (hname : condition.attribute? = some name) : ∀ c ∈ name.toList, isNameChar c = true := by
  have htaken : name = (takeName cs).1 := by
    unfold readAttribute? at h
    dsimp only at h
    split at h
    · obtain ⟨rfl, -⟩ := Prod.mk.inj (Option.some.inj h)
      exact (Option.some.inj hname).symm
    · split at h
      · obtain ⟨rfl, -⟩ := Prod.mk.inj (Option.some.inj h)
        exact (Option.some.inj hname).symm
      · simp at h
    · simp at h
  rw [htaken]
  exact fun c hc => isNameChar_of_mem_takeName hc

private theorem isNameChar_of_readCondition? (h : readCondition? cs = some (condition, rest))
    (hname : condition.attribute? = some name) : ∀ c ∈ name.toList, isNameChar c = true := by
  have hid : "id".toList.all isNameChar = true := by decide +kernel
  have hclass : "class".toList.all isNameChar = true := by decide +kernel
  unfold readCondition? at h
  split at h
  · simp at h
  · obtain ⟨rfl, -⟩ := Prod.mk.inj (Option.some.inj h)
    obtain rfl := Option.some.inj hname
    exact List.all_eq_true.1 hid
  · obtain ⟨rfl, -⟩ := Prod.mk.inj (Option.some.inj h)
    obtain rfl := Option.some.inj hname
    exact List.all_eq_true.1 hclass
  · exact isNameChar_of_readAttribute? h hname
  · split at h
    · obtain ⟨rfl, -⟩ := Prod.mk.inj (Option.some.inj h)
      simp [Condition.attribute?] at hname
    · simp at h

private theorem isNameChar_of_readConditions? {fuel : Nat} (h : readConditions? fuel cs = some conditions)
    (hmem : condition ∈ conditions) (hname : condition.attribute? = some name) :
    ∀ c ∈ name.toList, isNameChar c = true := by
  induction fuel generalizing cs conditions with
  | zero =>
    cases cs with
    | nil => simp [← Option.some.inj h] at hmem
    | cons => simp [readConditions?] at h
  | succ fuel ih =>
    cases cs with
    | nil => simp [← Option.some.inj h] at hmem
    | cons c cs =>
      simp only [readConditions?, Option.bind_eq_bind, Option.pure_def, Option.bind_eq_some_iff,
        Option.some.injEq] at h
      obtain ⟨⟨first, others⟩, hfirst, more, hmore, rfl⟩ := h
      rcases List.mem_cons.1 hmem with rfl | hmem
      · exact isNameChar_of_readCondition? hfirst hname
      · exact ih hmore hmem

/-- The attributes that a selector reads have names of name characters. -/
theorem isNameChar_of_parse? {text : String} (h : parse? text = some conditions) (hmem : condition ∈ conditions)
    (hname : condition.attribute? = some name) : ∀ c ∈ name.toList, isNameChar c = true := by
  unfold parse? at h
  dsimp only at h
  split at h
  · rename_i hread
    obtain rfl := Option.some.inj h
    exact isNameChar_of_readConditions? hread hmem hname
  · simp at h

end Selector

namespace Document

variable {d d' : Document} {name other : String} {e n : NodeId}

/-! ### The same links -/

private theorem containsWithin_congr (h : ∀ n, d'.parent? n = d.parent? n) (a : NodeId) (levels : Nat) (n : NodeId) :
    d'.containsWithin a levels n = d.containsWithin a levels n := by
  induction levels generalizing n with
  | zero => rfl
  | succ levels ih => simp only [containsWithin, h, ih]

private theorem descendantsWithin_congr (h : ∀ n, d'.children n = d.children n) (levels : Nat) (n : NodeId) :
    d'.descendantsWithin levels n = d.descendantsWithin levels n := by
  induction levels generalizing n with
  | zero => rfl
  | succ levels ih => simp only [descendantsWithin, h, ih]

/-! ### Other text -/

/-- The second document has other text than the first in an attribute of one element, and is the same otherwise. -/
structure Reworded (name : String) (e : NodeId) (d d' : Document) : Prop where
  rest : d' = d.modify e fun node => { node with attributes := d'.attributes e }
  attributes : List.Forall₂ (fun written written' => written'.1 = written.1 ∧
    (written.1 ≠ name → written'.2 = written.2)) (d.attributes e) (d'.attributes e)

namespace Reworded

/-- An element with this attribute alone. -/
theorem of_singleton {text text' : String}
    (rest : d' = d.modify e fun node => { node with attributes := d'.attributes e })
    (written : d.attributes e = [(name, text)]) (written' : d'.attributes e = [(name, text')]) :
    Reworded name e d d' := by
  refine ⟨rest, ?_⟩
  rw [written, written']
  exact .cons ⟨rfl, fun hne => absurd rfl hne⟩ .nil

theorem node?_of_ne (h : Reworded name e d d') (hn : n ≠ e) : d'.node? n = d.node? n := by
  rw [h.rest, node?_modify, if_neg (Ne.symm hn)]

theorem bare?_of_ne (h : Reworded name e d d') (hn : n ≠ e) : d'.bare? n = d.bare? n := by
  unfold bare?
  rw [h.node?_of_ne hn]

theorem tag (h : Reworded name e d d') (n : NodeId) : d'.tag n = d.tag n := by
  unfold Document.tag
  rw [h.rest, node?_modify]
  split
  · rw [Option.map_map]
    rfl
  · rfl

theorem contains (h : Reworded name e d d') (a n : NodeId) : d'.contains a n = d.contains a n := by
  have hsize : d'.size = d.size := (congrArg size h.rest).trans (size_modify _ _ _)
  have hparent : ∀ m, d'.parent? m = d.parent? m := fun m =>
    (congrArg (parent? · m) h.rest).trans (parent?_modify_of_eq fun _ => rfl)
  unfold Document.contains
  rw [hsize, containsWithin_congr hparent]

theorem descendants (h : Reworded name e d d') (n : NodeId) : d'.descendants n = d.descendants n := by
  have hsize : d'.size = d.size := (congrArg size h.rest).trans (size_modify _ _ _)
  have hchildren : ∀ m, d'.children m = d.children m := fun m =>
    (congrArg (children · m) h.rest).trans (children_modify_of_eq fun _ => rfl)
  unfold Document.descendants
  rw [hsize, descendantsWithin_congr hchildren]

/-- The same attributes are written, with the same text but for the one. -/
private theorem find? {written written' : List (String × String)}
    (h : List.Forall₂ (fun w w' => w'.1 = w.1 ∧ (w.1 ≠ name → w'.2 = w.2)) written written') :
    (written'.find? (·.1 == other)).isSome = (written.find? (·.1 == other)).isSome ∧
      (other ≠ name → (written'.find? (·.1 == other)).map (·.2) = (written.find? (·.1 == other)).map (·.2)) := by
  induction h with
  | nil => exact ⟨rfl, fun _ => rfl⟩
  | @cons w w' rest rest' hw _ ih =>
    rw [List.find?_cons, List.find?_cons, hw.1]
    by_cases hother : w.1 = other
    · rw [beq_iff_eq.2 hother]
      exact ⟨rfl, fun hne => congrArg some (hw.2 (hother ▸ hne))⟩
    · rw [beq_eq_false_iff_ne.2 hother]
      exact ih

theorem isSome_attribute? (h : Reworded name e d d') (n : NodeId) (other : String) :
    (d'.attribute? n other).isSome = (d.attribute? n other).isSome := by
  by_cases hn : n = e
  · subst hn
    unfold attribute?
    rw [Option.isSome_map, Option.isSome_map]
    exact (find? h.attributes).1
  · rw [attribute?_congr (attributes_congr (h.bare?_of_ne hn))]

theorem attribute?_of_ne (h : Reworded name e d d') (n : NodeId) (hother : other ≠ name) :
    d'.attribute? n other = d.attribute? n other := by
  by_cases hn : n = e
  · subst hn
    exact (find? h.attributes).2 hother
  · exact attribute?_congr (attributes_congr (h.bare?_of_ne hn)) other

/-- Only a condition on the attribute itself can tell the documents apart. -/
theorem meets (h : Reworded name e d d') {condition : Condition} (hcondition : condition.attribute? ≠ some name)
    (n : NodeId) : d'.meets n condition = d.meets n condition := by
  have hread : ∀ other, condition.attribute? = some other → d'.attribute? n other = d.attribute? n other :=
    fun other hother => h.attribute?_of_ne n fun he => hcondition (he ▸ hother)
  cases condition with
  | tag tag => exact congrArg (· == tag) (h.tag n)
  | id id => exact congrArg (· == some id) (hread "id" rfl)
  | inClass name =>
    unfold Document.meets
    dsimp only
    rw [hread "class" rfl]
  | has other => exact congrArg Option.isSome (hread other rfl)
  | equals other value => exact congrArg (· == some value) (hread other rfl)

/-- The search for the elements with the attribute is for the same elements in both documents. -/
theorem isMatch (h : Reworded name e d d') {conditions : Selector}
    (hparse : Selector.parse? ("[" ++ name ++ "]") = some conditions) (n : NodeId) :
    d'.isMatch conditions n = d.isMatch conditions n := by
  unfold Document.isMatch
  by_cases hname : ∀ c ∈ name.toList, Selector.isNameChar c = true
  · obtain rfl := Option.some.inj ((Selector.parse?_presence hname).symm.trans hparse)
    exact congrArg (· && true) (h.isSome_attribute? n name)
  · have hmeets : ∀ condition ∈ conditions, d'.meets n condition = d.meets n condition := fun condition hmem =>
      h.meets (fun hreads => hname (Selector.isNameChar_of_parse? hparse hmem hreads)) n
    rw [Bool.eq_iff_iff, List.all_eq_true, List.all_eq_true]
    exact forall₂_congr fun condition hmem => by rw [hmeets condition hmem]

/-! ### Elements that declare bindings -/

variable {scene scene' : Scene MemoryPage}

theorem outermost (h : Reworded name e scene.page.document scene'.page.document) (roots : List NodeId) :
    outermost scene'.page roots = outermost scene.page roots := by
  have hcontains : ∀ a n, Page.contains scene'.page a n = Page.contains scene.page a n := h.contains
  unfold PageBindings.outermost addOutermost
  simp only [hcontains]

theorem declaringBelow (h : Reworded name e scene.page.document scene'.page.document) (root : NodeId) :
    (declaringBelow name scene' root).2 = (declaringBelow name scene root).2 := by
  have hattribute : Page.hasAttribute scene'.page root name = Page.hasAttribute scene.page root name :=
    h.isSome_attribute? root name
  unfold PageBindings.declaringBelow
  simp only [hattribute, Page.query, MemoryPage.query]
  cases hparse : Selector.parse? ("[" ++ name ++ "]") with
  | none => rfl
  | some conditions =>
    have hquery : ∀ n, scene'.page.document.query n conditions = scene.page.document.query n conditions := by
      intro n
      unfold Document.query
      rw [h.descendants, funext (h.isMatch hparse)]
    simp only [hquery]

/-- The same elements have the attribute. -/
theorem declaringElements (h : Reworded name e scene.page.document scene'.page.document) (roots : List NodeId) :
    (declaringElements name scene' roots).2 = (declaringElements name scene roots).2 := by
  rw [(declaringElements_eq name scene' roots).2, (declaringElements_eq name scene roots).2, h.outermost]
  exact congrArg (List.flatMap · _) (funext h.declaringBelow)

end Reworded

end Document

end PageBindings
