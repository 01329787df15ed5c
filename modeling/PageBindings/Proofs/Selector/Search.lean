import PageBindings.Proofs.Page.Views
import PageBindings.Proofs.Selector.Grammar
import PageBindings.Proofs.Text.Words

/-!
# What a search below an element finds

A condition asks for one thing about an element (`Condition.Holds`): its tag, one of its attributes, or a word among
its classes.  A search whose text pieces spell finds the elements properly below the given one for which all of their
conditions hold, and a search with any other text is refused (`query_of_pieces`).
-/

namespace PageBindings

/-- What a condition asks for. -/
def Condition.Holds (d : Document) (n : NodeId) : Condition → Prop
  | .tag name => d.tag n = name
  | .id value => d.attribute? n "id" = some value
  | .inClass name => ∃ classes, d.attribute? n "class" = some classes ∧ Text.IsWord name.toList classes.toList
  | .has name => ∃ value, d.attribute? n name = some value
  | .equals name value => d.attribute? n name = some value

theorem Document.meets_iff {d : Document} {n : NodeId} {condition : Condition} :
    d.meets n condition = true ↔ condition.Holds d n := by
  cases condition with
  | tag name => exact beq_iff_eq
  | id value => exact beq_iff_eq
  | inClass name =>
    unfold meets Condition.Holds
    cases d.attribute? n "class" with
    | none => simp
    | some classes => simp [Text.mem_words_iff]
  | has name => exact Option.isSome_iff_exists
  | equals name value => exact beq_iff_eq

theorem Document.isMatch_iff {d : Document} {n : NodeId} {selector : Selector} :
    d.isMatch selector n = true ↔ ∀ condition ∈ selector, condition.Holds d n := by
  unfold isMatch
  simp only [List.all_eq_true, meets_iff]

namespace MemoryPage

variable {page : MemoryPage} {below : Option NodeId} {text : String} {selector : Selector}

/-- The list has the elements properly below a node for which all conditions hold, in document order and each once. -/
structure Finds (page : MemoryPage) (below : NodeId) (selector : Selector) (found : List NodeId) : Prop where
  ordered : found.Pairwise page.document.Before
  nodup : found.Nodup
  mem_iff (node : NodeId) : node ∈ found ↔
    page.document.ProperlyAbove below node ∧ ∀ condition ∈ selector, condition.Holds page.document node

/-- What a search of a document finds below a node. -/
theorem finds_query (hf : page.document.Forest) (below : NodeId) (selector : Selector) :
    page.Finds below selector (page.document.query below selector) := by
  refine ⟨?_, ?_, fun node => ?_⟩
  · exact (List.pairwise_cons.1 (hf.pairwise_before below)).2.filter _
  · exact (List.nodup_cons.1 (hf.nodup_descendants below)).2.filter _
  · rw [Document.query, List.mem_filter, hf.mem_descendants_iff, Document.isMatch_iff]

/-- Reading decides whether there is a search at all. -/
theorem query_eq (page : MemoryPage) (below : Option NodeId) (text : String) :
    (∀ selector, Selector.parse? text = some selector →
      Page.query page below text = .ok (page.document.query (below.getD Document.root) selector)) ∧
    (Selector.parse? text = none → ∃ cause, Page.query page below text = .error cause) := by
  show (∀ selector, _ → MemoryPage.query page below text = _) ∧ (_ → ∃ cause, MemoryPage.query page below text = _)
  unfold MemoryPage.query
  constructor
  · intro selector hparse
    rw [hparse]
  · intro hparse
    rw [hparse]
    exact ⟨_, rfl⟩

/-- A text is read as conditions if and only if pieces spell it, one condition for each piece; the search finds the
elements properly below the given one, or below the document node, for which they hold. -/
theorem query_of_pieces (hf : page.document.Forest) (below : Option NodeId) (text : String) :
    (∀ selector, Selector.parse? text = some selector ↔
      ∃ pieces, Selector.Spells text pieces ∧ selector = pieces.map Selector.Piece.condition) ∧
    (∀ pieces, Selector.Spells text pieces → ∃ found, Page.query page below text = .ok found ∧
      page.Finds (below.getD Document.root) (pieces.map Selector.Piece.condition) found) ∧
    ((∀ pieces, ¬ Selector.Spells text pieces) →
      Selector.parse? text = none ∧ ∃ cause, Page.query page below text = .error cause) := by
  obtain ⟨hfound, hrefused⟩ := query_eq page below text
  refine ⟨fun selector => Selector.parse?_eq_some_iff, ?_, ?_⟩
  · intro pieces hspells
    have hparse := Selector.parse?_eq_some_iff.2 ⟨pieces, hspells, rfl⟩
    exact ⟨_, hfound _ hparse, finds_query hf _ _⟩
  · intro hnone
    have hparse := Selector.parse?_eq_none_iff.2 hnone
    exact ⟨hparse, hrefused hparse⟩

/-- An element in another one, both of the same class and title. -/
def alike : MemoryPage :=
  .withBody "<p class='a b' title='x\"\n]'><q title='x\"\n]' class='b'></q></p>"

private theorem alike_facts : alike.document.parent? 3 = some 2 ∧ alike.document.attribute? 3 "class" = some "b" ∧
    alike.document.attribute? 3 "title" = some "x\"\n]" := by
  decide +kernel

private theorem isWord_self : Text.IsWord "b".toList "b".toList := by
  have hnone : "b".toList.all (fun c => !Text.isBlank c) = true := by decide +kernel
  exact ⟨[], [], by simp, ⟨by simp, by simpa using hnone, by simp⟩, by simp⟩

theorem query_of_pieces_alike : ∃ found, Page.query alike (some 2) " .b[title=\"x\\\"\\a ]\"]\n" = .ok found ∧
    3 ∈ found ∧ 2 ∉ found := by
  have hforest : alike.document.Forest := forest_withBody _
  obtain ⟨hparent, hclass, htitle⟩ := alike_facts
  have hspells : Selector.Spells " .b[title=\"x\\\"\\a ]\"]\n"
      [.inClass "b", .equals "title" [.plain 'x', .escaped '"', .escaped 'a', .plain ' ', .plain ']']] := by
    have hclassName : "b".toList.all Selector.isNameChar = true := by decide +kernel
    have htitleName : "title".toList.all Selector.isNameChar = true := by decide +kernel
    have hbracket : Selector.isNameChar '[' = false := by decide +kernel
    refine ⟨by simp, by decide +kernel, ?_, ?_⟩
    · intro p hp
      simp only [List.mem_cons, List.not_mem_nil, or_false] at hp
      rcases hp with rfl | rfl
      · exact ⟨List.all_eq_true.1 hclassName, by simp, by simp⟩
      · refine ⟨List.all_eq_true.1 htitleName, by simp, ?_⟩
        rintro name text heq
        obtain ⟨-, rfl⟩ := Selector.Piece.equals.inj heq
        simp [Selector.QuotedUnit.IsProper]
    · simpa [Selector.Piece.EndsBefore, Selector.Piece.written] using fun _ => hbracket
  obtain ⟨found, hquery, hfinds⟩ := (query_of_pieces hforest (some 2) _).2.1 _ hspells
  refine ⟨found, hquery, (hfinds.mem_iff 3).2 ⟨Document.properlyAbove_iff.2 ⟨2, hparent, .refl _ 2⟩, ?_⟩, fun h => ?_⟩
  · intro condition hcondition
    simp only [List.map_cons, List.map_nil, List.mem_cons, List.not_mem_nil, or_false] at hcondition
    rcases hcondition with rfl | rfl
    · exact ⟨"b", hclass, isWord_self⟩
    · exact htitle
  · exact hforest.acyclic 2 ((hfinds.mem_iff 2).1 h).1

end MemoryPage

end PageBindings
