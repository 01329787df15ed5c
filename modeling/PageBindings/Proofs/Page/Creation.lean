import PageBindings.Page.Memory
import PageBindings.Proofs.Document.Numbering
import PageBindings.Proofs.Markup.Characters

/-!
# Creating elements from any text

Every text is markup, also one with tags, quotes and closing tags that have no end or no match.  What reading it makes
of a document, in whatever state this was, is summed up in `Document.Intake`; the element that is created is the first
of the new ones, and there is none only if nothing is new (`create_any`).
-/

namespace PageBindings

namespace Document

/-- What reading a markup text makes of a document, with the roots of the new trees. -/
structure Intake (d : Document) (markup : String) (d' : Document) (roots : List NodeId) : Prop where
  /-- The text is read to its end byte by byte, and the trees are those of its tokens. -/
  read {fuel : Nat} (h : markup.toList.length < fuel) : ∃ tokens stack,
    Markup.Bytes.tokens (Text.utf8 markup) fuel = .ok tokens ∧
      tokens.foldl Markup.Builder.step { document := d, stack := [], roots := [] } =
        { document := d', stack, roots := roots.reverse }
  no_replacement (h : '\uFFFD' ∉ markup.toList) : Markup.SpelledFrom (· ≠ '\uFFFD') d.size d'
  size_le : d.size ≤ d'.size
  kept {n : NodeId} (h : n < d.size) : d'.node? n = d.node? n
  /-- Going through the new trees is counting from the first new number to the last. -/
  preorder : roots.flatMap (fun n => n :: d'.descendants n) = List.range' d.size (d'.size - d.size)
  parentless {n : NodeId} (h : n ∈ roots) : d'.parent? n = none

theorem intake_read (d : Document) (markup : String) : d.Intake markup (d.read markup).1 (d.read markup).2 where
  read h := by
    let built := (Markup.tokens markup).foldl Markup.Builder.step { document := d, stack := [], roots := [] }
    have hroots : (d.read markup).2.reverse = built.roots := List.reverse_reverse _
    refine ⟨_, built.stack, Markup.tokens_utf8 markup h, ?_⟩
    rw [hroots]
    rfl
  no_replacement h := Markup.no_replacement_read d h
  size_le := (grows_read d markup).toKeeps.size_le
  kept h := node?_read h
  preorder := preorder_read d markup
  parentless h := (root_read h).2.2

variable {d d' : Document} {markup : String} {roots : List NodeId}

/-- The first root has the first new number. -/
theorem Intake.head?_eq (h : d.Intake markup d' roots) :
    roots.head? = if d'.size = d.size then none else some d.size := by
  have hsize := h.size_le
  have hpre := h.preorder
  cases roots with
  | nil =>
    have hempty : List.range' d.size (d'.size - d.size) = [] := hpre.symm
    rw [List.range'_eq_nil_iff] at hempty
    rw [if_pos (by omega)]
    rfl
  | cons e rest =>
    by_cases heq : d'.size = d.size
    · rw [heq, Nat.sub_self] at hpre
      simp at hpre
    · obtain ⟨count, hcount⟩ : ∃ count, d'.size - d.size = count + 1 := ⟨d'.size - d.size - 1, by omega⟩
      rw [hcount, List.range'_succ, List.flatMap_cons, List.cons_append] at hpre
      rw [if_neg heq, List.head?_cons, (List.cons.inj hpre).1]

end Document

namespace MemoryPage

variable {page : MemoryPage}

theorem create_eq_of_not_refused (h : Capability.create ∉ page.refused) (html : String) :
    ∃ page', page'.document = (page.document.read html).1 ∧
      Page.create page html = .ok ((page.document.read html).2.head?, page') := by
  have hnot : ¬ page.refused.contains Capability.create = true := by simpa using h
  show ∃ page', _ ∧ page.allow .create _ = _
  unfold allow
  rw [if_neg hnot]
  split
  · rename_i document hread
    rw [hread]
    exact ⟨_, rfl, rfl⟩
  · rename_i document element others hread
    rw [hread]
    exact ⟨_, rfl, rfl⟩

/-- Whatever the text and the page are, creating an element reads the text as markup, and gives the first of the new
elements, or none if there is none. -/
theorem create_any (page : MemoryPage) (html : String) :
    page.document.Intake html (page.document.read html).1 (page.document.read html).2 ∧
    (Capability.create ∉ page.refused → ∃ page', page'.document = (page.document.read html).1 ∧
      Page.create page html =
        .ok (if page'.document.size = page.document.size then none else some page.document.size, page')) := by
  have hintake := page.document.intake_read html
  refine ⟨hintake, fun hallowed => ?_⟩
  obtain ⟨page', hdocument, hcreate⟩ := create_eq_of_not_refused hallowed html
  refine ⟨page', hdocument, ?_⟩
  rw [hcreate, hdocument, hintake.head?_eq]

/-- A page whose only node is its own child, and its parent. -/
def circular : MemoryPage :=
  { document := ⟨#[{ tag := "#document", parent := some 0, children := [0, 7] }]⟩ }

theorem create_any_circular : ∃ page',
    Page.create circular "ä<P é=\"&lt;\"<b>ß</q></p><i c='ü" = .ok (some 1, page') ∧ page'.document.size = 3 := by
  have hsize : (circular.document.read "ä<P é=\"&lt;\"<b>ß</q></p><i c='ü").1.size = 3 := by decide +kernel
  obtain ⟨page', hdocument, hcreate⟩ := (create_any circular "ä<P é=\"&lt;\"<b>ß</q></p><i c='ü").2 (by decide)
  rw [← hdocument] at hsize
  rw [hsize] at hcreate
  exact ⟨page', hcreate, hsize⟩

end MemoryPage

end PageBindings
