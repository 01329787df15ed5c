import PageBindings.Document.Basic
import PageBindings.Markup.Token

/-!
# Documents from markup

`Document.read` adds the elements of a markup text to a document, as trees that are attached to nothing, and gives
their roots.  An opening tag makes an element in the innermost open one; a closing tag closes the innermost open
element of its name and all that are open in it, or is passed over if there is none.  Text outside of elements is
lost.
-/

namespace PageBindings

namespace Markup

/-- The elements that have no content and no closing tag. -/
def isVoid (tag : String) : Bool :=
  ["input", "br", "img", "hr", "meta", "link"].contains tag

/-- Where the reading of markup stands. -/
structure Builder where
  document : Document
  /-- The open elements, the innermost one first. -/
  stack : List NodeId
  /-- The roots so far, the last one first. -/
  roots : List NodeId

namespace Builder

/-- Makes the element of an opening tag. -/
def openElement (b : Builder) (tag : String) (attributes : List (String × String)) (selfClosing : Bool) : Builder :=
  let node := b.document.size
  let document := b.document.add tag attributes
  let stack := if selfClosing || isVoid tag then b.stack else node :: b.stack
  match b.stack with
  | [] => { document, stack, roots := node :: b.roots }
  | parent :: _ => { document := document.attachLast parent node, stack, roots := b.roots }

/-- The open elements once the innermost one of this name is closed, if there is one. -/
def closeElement (document : Document) (tag : String) : List NodeId → Option (List NodeId)
  | [] => none
  | node :: outer => if document.tag node = tag then some outer else closeElement document tag outer

/-- Takes up a token. -/
def step (b : Builder) : Token → Builder
  | .text text =>
    match b.stack with
    | [] => b
    | parent :: _ => { b with document := b.document.addText parent text }
  | .opening tag attributes selfClosing => b.openElement tag attributes selfClosing
  | .closing tag => { b with stack := (closeElement b.document tag b.stack).getD b.stack }

end Builder

end Markup

/-- Adds the trees of a markup text to a document, and gives their roots in order. -/
def Document.read (d : Document) (markup : String) : Document × List NodeId :=
  let built := (Markup.tokens markup).foldl Markup.Builder.step { document := d, stack := [], roots := [] }
  (built.document, built.roots.reverse)

/-- The document with the given markup in its body. -/
def Document.withBody (markup : String) : Document :=
  match Document.empty.read ("<body>" ++ markup ++ "</body>") with
  | (d, body :: _) => d.attachLast Document.root body
  | (d, []) => d

end PageBindings
