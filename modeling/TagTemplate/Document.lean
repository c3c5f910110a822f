import TagTemplate.LoopHeader
import TagTemplate.Text.Escaped

/-!
# Documents

A document is a list of nodes: literal text, echo tags, and loops with nodes of their own in
their bodies. Functions on nodes come in pairs, one for a node and one for a list of nodes,
and recurse along the tree.

`Document.source` writes a document as a template. As long as no echo tag is empty and no double
is infinite or NaN, the template reads back to the document with empty texts dropped and
neighbouring texts joined, and nothing else changed.

## Main definitions

* `Node`, `Document`: the tree.
* `Document.source`: the template of a document.
* `Document.walk`: all nodes, each in front of those in its body.
* `Document.agrees`: comparison up to the tolerance on doubles.
-/

namespace TagTemplate

/-- A node of a document. -/
inductive Node where
  /-- Literal text, escapes resolved. -/
  | text (content : String)
  /-- A tag that shows its elements. -/
  | echo (elements : List Element)
  /-- A loop and its body. -/
  | loop (header : LoopHeader) (body : List Node)

/-- A whole document. -/
structure Document where
  children : List Node

/-! ### Single nodes -/

namespace Node

/-- The elements of an echo tag as they are written, a blank between two of them. -/
def elementsText (es : List Element) : String := " ".intercalate (es.map Element.text)

/-- What sort of node it is, in a word. -/
def kind : Node → String
  | text _ => "Text"
  | echo _ => "Echo"
  | loop _ _ => "ForLoop"

/-- A character of a text, as labels show it: line feeds as an escape. -/
def labelChar : Char → List Char
  | '\n' => ['\\', 'n']
  | c => [c]

/-- A line that says what is in a node. -/
def label : Node → String
  | text content => String.ofList (content.toList.flatMap labelChar)
  | echo elements => elementsText elements
  | loop header _ => header.text

/-- A node in brief. -/
def display : Node → String
  | text content => "Text(" ++ Nat.repr content.length ++ " chars)"
  | echo elements => "Echo(" ++ Nat.repr elements.length ++ " elements)"
  | loop header body =>
    "ForLoop('" ++ header.text ++ "', " ++ Nat.repr body.length ++ " children)"

/-- The body of a loop; other nodes have none. -/
def body? : Node → Option (List Node)
  | loop _ body => some body
  | _ => none

end Node

/-! ### Writing templates -/

mutual

/-- A node as it is written in a template. -/
def Node.source : Node → String
  | .text content => Escaped.escape content
  | .echo elements => "\x7b$= " ++ Node.elementsText elements ++ " $\x7d"
  | .loop header body =>
    "\x7b$FOR " ++ header.text ++ " $\x7d" ++ Node.sourceAll body ++ "\x7b$END$\x7d"

/-- Nodes in a row as they are written in a template. -/
def Node.sourceAll : List Node → String
  | [] => ""
  | n :: ns => n.source ++ Node.sourceAll ns

end

/-! ### Counting and walking -/

mutual

/-- The number of nodes in a node, itself included. -/
def Node.count : Node → Nat
  | .text _ => 1
  | .echo _ => 1
  | .loop _ body => 1 + Node.countAll body

/-- The number of nodes in a list of nodes and their bodies. -/
def Node.countAll : List Node → Nat
  | [] => 0
  | n :: ns => n.count + Node.countAll ns

end

mutual

/-- A node and all nodes in its body, in the order in which they are written. -/
def Node.walk : Node → List Node
  | .text content => [.text content]
  | .echo elements => [.echo elements]
  | .loop header body => .loop header body :: Node.walkAll body

/-- Nodes in a row, each followed by the nodes in its body. -/
def Node.walkAll : List Node → List Node
  | [] => []
  | n :: ns => n.walk ++ Node.walkAll ns

end

/-! ### Comparison -/

mutual

/-- The same node, doubles being compared up to the tolerance. -/
def Node.agrees : Node → Node → Bool
  | .text a, .text b => a == b
  | .echo as, .echo bs => Element.agreesAll as bs
  | .loop h as, .loop k bs => h.agrees k && Node.agreesAll as bs
  | _, _ => false

/-- The same nodes in the same order, doubles being compared up to the tolerance. -/
def Node.agreesAll : List Node → List Node → Bool
  | [], [] => true
  | a :: as, b :: bs => a.agrees b && Node.agreesAll as bs
  | _, _ => false

end

/-! ### Whole documents -/

namespace Document

/-- The template of a document. -/
def source (d : Document) : String := Node.sourceAll d.children

/-- The number of nodes in a document. -/
def nodeCount (d : Document) : Nat := Node.countAll d.children

/-- All nodes of a document, in the order in which they are written. -/
def walk (d : Document) : List Node := Node.walkAll d.children

/-- The same document, doubles being compared up to the tolerance. -/
def agrees (a b : Document) : Bool := Node.agreesAll a.children b.children

/-- What sort of thing a document is, in a word. -/
def kind : String := "Document"

/-- A line that says what is in a document. -/
def label (d : Document) : String := Nat.repr d.children.length ++ " items"

/-- A document in brief. -/
def display (d : Document) : String := kind ++ "(" ++ d.label ++ ")"

end Document

end TagTemplate
