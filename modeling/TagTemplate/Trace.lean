import TagTemplate.Trace.Filter

/-!
# Traces

What is told, on request, about the reading of a source: every token as it is read, every tag
as it is understood, and the results. The trace of a parse follows the pieces of the template
and tells of no token that was not looked at, so it ends where the parse failed.

## Main definitions

* `Trace.tokens`, `Trace.parse`, `Trace.verify`, `Trace.render`: what can be told of each
  activity.
* `Trace.lines`: what is told of it.
-/

namespace TagTemplate

namespace Trace

/-- The end of a source, read as a token. -/
def endOf (source : String) : Event :=
  let size := byteLength source.toList
  .lexed .eof ⟨size, size⟩

/-- What is told of the tokens of a source. -/
def tokens (source : String) : List Event :=
  let lexing := Lexing.ofSource source
  lexing.spans.map (fun (token, span) => .lexed token span) ++
    if lexing.fault.isNone then [endOf source] else []

/-- Whether a token is the last one of a piece. -/
def endsPiece : Token → Bool
  | .text _ | .tagClose => true
  | _ => false

/-- Follows tokens and the pieces they make up, inside of `depth` loops. The loop end that
matches nothing ends the story; otherwise `ending` is told last. -/
def follow (ending : List Event) : Nat → List Piece → List (Token × Span) → List Event
  | _, _, [] => ending
  | depth, pieces, (token, span) :: more =>
    .lexed token span ::
      if endsPiece token then
        match pieces with
        | [] => follow ending depth [] more
        | .text _ :: ps => follow ending depth ps more
        | .echo es :: ps => .echoTag depth es.length :: follow ending depth ps more
        | .enter header :: ps => .opening depth header :: follow ending (depth + 1) ps more
        | .leave :: ps =>
          match depth with
          | 0 => []
          | outer + 1 => .closing outer :: follow ending outer ps more
      else follow ending depth pieces more

/-- What is told of the parse of a source. -/
def parse (source : String) : List Event :=
  let lexing := Lexing.ofSource source
  let pieces := readPieces lexing.error? lexing.tokens
  let unread := pieces.interruption.elim 0 fun i => i.unread.length
  let looked := lexing.spans.take (lexing.lexemes.length - unread)
  let ending :=
    match pieces.interruption, pieces.document with
    | some _, _ => []
    | none, .ok d => [endOf source, .parsed d.nodeCount]
    | none, .error _ => [endOf source]
  follow ending 0 pieces.pieces looked

/-- What is told of the check that a source survives being regenerated. -/
def verify (source : String) : List Event :=
  parse source ++
    match TagTemplate.parse source with
    | .error _ => []
    | .ok d =>
      parse d.source ++
        match verifyRoundTrip source with
        | .ok d => [.verified d.nodeCount]
        | .error _ => []

/-- What is told of the view of a source. -/
def render (v : View) (source : String) : List Event :=
  .processing v (byteLength source.toList) ::
    match v.stage with
    | .token => tokens source
    | _ => parse source

/-- The lines that a filter lets through. -/
def lines (filter : Filter) (events : List Event) : String :=
  String.join ((events.filter filter.tells).map Event.line)

end Trace

end TagTemplate
