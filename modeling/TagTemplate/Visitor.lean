import TagTemplate.Document

/-!
# Visitors

A visitor is led through a document: first to the document itself, then to its nodes in the order
in which they are written, to a loop in front of the nodes in its body. What it makes of them
depends on their sort and on what it has seen so far; sorts it does not care for leave that as it
is.
-/

namespace TagTemplate

/-- What is made of each sort of thing that is met, behind what has been seen so far. -/
structure Visitor (σ : Type) where
  /-- Of the document. -/
  document : Document → σ → σ := fun _ seen => seen
  /-- Of a text. -/
  text : String → σ → σ := fun _ seen => seen
  /-- Of an echo tag, by its elements. -/
  echo : List Element → σ → σ := fun _ seen => seen
  /-- Of a loop, by its header and its body. -/
  loop : LoopHeader → List Node → σ → σ := fun _ _ seen => seen

mutual

/-- Leads a visitor to a node and then through its body. -/
def Node.accept {σ : Type} (v : Visitor σ) : Node → σ → σ
  | .text content, seen => v.text content seen
  | .echo elements, seen => v.echo elements seen
  | .loop header body, seen => Node.acceptAll v body (v.loop header body seen)

/-- Leads a visitor to nodes in a row. -/
def Node.acceptAll {σ : Type} (v : Visitor σ) : List Node → σ → σ
  | [], seen => seen
  | n :: ns, seen => Node.acceptAll v ns (n.accept v seen)

end

/-- Leads a visitor to a document and then through all of it. -/
def Document.accept {σ : Type} (v : Visitor σ) (d : Document) (seen : σ) : σ :=
  Node.acceptAll v d.children (v.document d seen)

end TagTemplate
