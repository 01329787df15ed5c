import PageBindings.Page.Memory
import PageBindings.Proofs.Document.Splicing

/-!
# What a page shows

The features of an element are all that can be seen of it: what is written in it, its value and how many listeners it
has for each event type, with its number only if it was known before (`MemoryPage.features`).  The shape of a page is
the tree of its document with these features (`MemoryPage.shape`), so that two pages have the same shape if they
differ in nothing but the numbers of new elements.
-/

namespace PageBindings

namespace Document

variable {d d' : Document} {n m : NodeId}

theorem attribute?_congr (h : d.attributes n = d'.attributes m) (name : String) :
    d.attribute? n name = d'.attribute? m name := by
  unfold attribute?
  rw [h]

/-- Selectors ask for nothing but tag and attributes. -/
theorem isMatch_congr (htag : d.tag n = d'.tag m) (hattributes : d.attributes n = d'.attributes m)
    (selector : Selector) : d.isMatch selector n = d'.isMatch selector m := by
  unfold isMatch
  refine congrArg (List.all selector) (funext fun condition => ?_)
  cases condition with
  | tag name => exact congrArg (· == name) htag
  | id id => exact congrArg (· == some id) (attribute?_congr hattributes "id")
  | inClass name =>
    unfold meets
    dsimp only
    rw [attribute?_congr hattributes "class"]
  | has name => exact congrArg Option.isSome (attribute?_congr hattributes name)
  | equals name value => exact congrArg (· == some value) (attribute?_congr hattributes name)

end Document

/-- All that can be seen of an element.  An element that was not known before has no number. -/
structure Features where
  number : Option NodeId
  tag : String
  attributes : List (String × String)
  text : String
  value : Option String
  /-- How many listeners there are for an event type. -/
  listeners : String → Nat

namespace Features

/-- Whether an element with these features matches a selector. -/
def isMatch (selector : Selector) (features : Features) : Bool :=
  Document.isMatch ⟨#[{ tag := features.tag, attributes := features.attributes }]⟩ selector Document.root

end Features

namespace MemoryPage

/-- The features of an element, with its number if that is less than `known`. -/
def features (page : MemoryPage) (known : Nat) (n : NodeId) : Features where
  number := if n < known then some n else none
  tag := page.document.tag n
  attributes := page.document.attributes n
  text := page.document.text n
  value := page.document.value? n
  listeners eventType := (page.listenersOf n eventType).length

/-- The tree of the document, with the numbers of the elements that were known. -/
def shape (page : MemoryPage) (known : Nat) : Tree Features :=
  page.document.tree (page.features known) Document.root

/-- Marks and listeners sit on nodes that are in use. -/
structure Seated (page : MemoryPage) : Prop where
  marks : ∀ mark ∈ page.marks, mark.1 < page.document.size
  listeners : ∀ listener ∈ page.listeners, listener.node < page.document.size

theorem seated_withBody (markup : String) : (withBody markup).Seated :=
  ⟨fun _ hmark => absurd hmark List.not_mem_nil, fun _ hmem => absurd hmem List.not_mem_nil⟩

variable {page page' : MemoryPage} {known known' : Nat} {n n' : NodeId}

/-- What is written in a node and its listeners make its features. -/
theorem features_congr (hnumber : (page.features known n).number = (page'.features known' n').number)
    (hbare : page.document.bare? n = page'.document.bare? n')
    (hlisteners : ∀ eventType,
      (page.listenersOf n eventType).length = (page'.listenersOf n' eventType).length) :
    page.features known n = page'.features known' n' := by
  have hcounts : (page.features known n).listeners = (page'.features known' n').listeners := funext hlisteners
  unfold features at hnumber hcounts ⊢
  simp only [Features.mk.injEq]
  exact ⟨hnumber, Document.tag_congr hbare, Document.attributes_congr hbare, Document.text_congr hbare,
    Document.value?_congr hbare, hcounts⟩

/-- Whether an element matches is a matter of its features. -/
theorem isMatch_features (page : MemoryPage) (known : Nat) (selector : Selector) (n : NodeId) :
    (page.features known n).isMatch selector = page.document.isMatch selector n :=
  Document.isMatch_congr rfl rfl selector

end MemoryPage

end PageBindings
