import TagTemplate.Document
import TagTemplate.Piece
import TagTemplate.Token.Lexing

/-!
# From pieces to documents

The pieces of a template are put together from left to right. A `Builder` holds the loops that
are open and the nodes collected so far in each of them; the end of a loop closes the innermost
one. Of two faults the one that comes first in the source counts, so a loop end without its
loop is reported in front of a bad tag behind it, and loops left open only when all pieces are
good.

## Main definitions

* `Builder.add`, `Builder.finish`: putting pieces together.
* `parse`: the document of a source, or why it is none.
-/

namespace TagTemplate

/-- A document under construction. -/
structure Builder where
  /-- The nodes so far of the innermost open loop, or of the document; the last comes first. -/
  nodes : List Node
  /-- The open loops, the innermost first, each with the nodes in front of it; of these the
  last comes first. -/
  loops : List (LoopHeader × List Node)

namespace Builder

/-- Nothing so far. -/
def empty : Builder := { nodes := [], loops := [] }

/-- How many loops are open. -/
def depth (b : Builder) : Nat := b.loops.length

/-- Puts a node behind those collected so far. -/
def push (b : Builder) (n : Node) : Builder := { b with nodes := n :: b.nodes }

/-- Adds the next piece. -/
def add (b : Builder) : Piece → Except ParseError Builder
  | .text content => .ok (b.push (.text content))
  | .echo elements => .ok (b.push (.echo elements))
  | .enter header => .ok { nodes := [], loops := (header, b.nodes) :: b.loops }
  | .leave =>
    match b.loops with
    | [] => .error .unmatchedLeave
    | (header, before) :: outer =>
      .ok { nodes := .loop header b.nodes.reverse :: before, loops := outer }

/-- Adds pieces in order, up to the first that does not fit. -/
def addAll (b : Builder) : List Piece → Except ParseError Builder
  | [] => .ok b
  | p :: ps =>
    match b.add p with
    | .ok b' => addAll b' ps
    | .error e => .error e

/-- The document, if no loop is open. -/
def finish (b : Builder) : Except ParseError Document :=
  if b.loops.isEmpty then .ok { children := b.nodes.reverse }
  else .error (.unclosedLoops b.depth)

end Builder

/-- The document made of pieces, or the first fault. -/
def Pieces.document (p : Pieces) : Except ParseError Document :=
  match Builder.empty.addAll p.pieces with
  | .error e => .error e
  | .ok b =>
    match p.interruption with
    | some i => .error i.error
    | none => b.finish

/-- The document of a list of tokens behind which the lexer stopped. -/
def parseTokens (stop : Option LexError) (tokens : List Token) : Except ParseError Document :=
  (readPieces stop tokens).document

/-- The document of a source, or why it is none. -/
def parse (source : String) : Except ParseError Document :=
  let lexing := Lexing.ofSource source
  parseTokens lexing.error? lexing.tokens

/-- The document of a source that may be missing. -/
def parseOptional : Option String → Except ParseError Document
  | none => .error .missingInput
  | some source => parse source

end TagTemplate
