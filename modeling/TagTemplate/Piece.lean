import TagTemplate.LoopHeader
import TagTemplate.ParseError

/-!
# Pieces of templates

Between tokens and trees stands the flat list of pieces: runs of text and tags, each tag read
and checked on its own. Whether the loops fit together is not a matter of single tags and is
looked at later.

Reading stops at the first tag that is wrong on its own, or where the tokens end because the
lexer met a fault. `stop` is that fault; tokens that end without one end the source. What was
not looked at any more is kept, so that it can be told how far the reading went.

## Main definitions

* `readTag`: one tag, from behind its opener.
* `readPieces`: all pieces of a list of tokens.
-/

namespace TagTemplate

/-- What one run of text or one tag contributes. -/
inductive Piece where
  /-- Literal text. -/
  | text (content : String)
  /-- An echo tag. -/
  | echo (elements : List Element)
  /-- The tag that begins a loop. -/
  | enter (header : LoopHeader)
  /-- The tag that ends a loop. -/
  | leave
deriving DecidableEq

/-- Why reading stopped, and the tokens not looked at. -/
structure Interruption where
  /-- Why. -/
  error : ParseError
  /-- The tokens behind the last one looked at. -/
  unread : List Token
deriving DecidableEq

/-- The element a token stands for, if it is one of an element. -/
def Token.element? : Token → Option Element
  | .name n => some (.var n)
  | .function n => some (.function n)
  | .integer v => some (.integer v)
  | .double v => some (.double v)
  | .string v => some (.string v)
  | .operator op => some (.operator op)
  | _ => none

/-- The error at the end of the tokens: the fault of the lexer, or else what is wrong with the
end of the source in this place. -/
def errorAtEnd (stop : Option LexError) (atEnd : ParseError) : ParseError :=
  match stop with
  | some e => .lexical e
  | none => atEnd

/-! ### Tags -/

/-- Reads the elements of a tag and its closing mark. -/
def readArguments (stop : Option LexError) (tag : Tag) :
    List Token → Except Interruption (List Element × List Token)
  | [] => .error ⟨errorAtEnd stop (.unexpectedInTag .eof tag), []⟩
  | .tagClose :: ts => .ok ([], ts)
  | t :: ts =>
    match t.element? with
    | none => .error ⟨.unexpectedInTag t tag, ts⟩
    | some e =>
      match readArguments stop tag ts with
      | .ok (es, rest) => .ok (e :: es, rest)
      | .error i => .error i

/-- What the elements of an echo tag make of it. -/
def echoPiece : List Element → Except ParseError Piece
  | [] => .error .emptyEcho
  | es => .ok (.echo es)

/-- What the elements of the tag make of the beginning of a loop. -/
def enterPiece : List Element → Except ParseError Piece
  | [v, a, b] => (LoopHeader.ofElements v a b none).mapError .loopHeader |>.map .enter
  | [v, a, b, c] => (LoopHeader.ofElements v a b (some c)).mapError .loopHeader |>.map .enter
  | es => .error (.loopArity es.length)

/-- What the elements of the tag make of the end of a loop. -/
def leavePiece : List Element → Except ParseError Piece
  | [] => .ok .leave
  | es => .error (.leaveArguments es.length)

/-- What the elements of a tag make of it. -/
def Tag.piece : Tag → List Element → Except ParseError Piece
  | .echo => echoPiece
  | .enter => enterPiece
  | .leave => leavePiece

/-- The tag whose name a token is; the case of letters does not matter. -/
def Tag.ofHead? : Token → Option Tag
  | .echo => some .echo
  | .name n =>
    if n.matchesWord Tag.enter.text then some .enter
    else if n.matchesWord Tag.leave.text then some .leave
    else none
  | _ => none

/-- Reads a tag, from behind its opener: its name, its elements up to the closing mark, and only
then whether they fit. -/
def readTag (stop : Option LexError) : List Token → Except Interruption (Piece × List Token)
  | [] => .error ⟨errorAtEnd stop (.unsupportedTag .eof), []⟩
  | head :: ts =>
    match Tag.ofHead? head with
    | none => .error ⟨.unsupportedTag head, ts⟩
    | some tag =>
      match readArguments stop tag ts with
      | .error i => .error i
      | .ok (es, rest) =>
        match tag.piece es with
        | .ok piece => .ok (piece, rest)
        | .error e => .error ⟨e, rest⟩

/-- Reads the piece that begins with the token `t`. -/
def readPiece (stop : Option LexError) (t : Token) (ts : List Token) :
    Except Interruption (Piece × List Token) :=
  match t with
  | .text content => .ok (.text content, ts)
  | .tagOpen => readTag stop ts
  | t => .error ⟨.unexpectedOutside t, ts⟩

/-! ### Reading uses up tokens -/

/-- The elements of a tag and its closing mark leave fewer tokens. -/
theorem length_rest_readArguments {stop : Option LexError} {tag : Tag}
    {ts rest : List Token} {es : List Element}
    (h : readArguments stop tag ts = .ok (es, rest)) : rest.length < ts.length := by
  fun_induction readArguments stop tag ts generalizing es with
  | case1 => cases h
  | case2 => cases h; simp
  | case3 => cases h
  | case4 t ts _ e _ es' rest' hrec ih =>
    cases h
    have := ih hrec
    simp only [List.length_cons]
    omega
  | case5 => cases h

/-- Every tag leaves fewer tokens. -/
theorem length_rest_readTag {stop : Option LexError} {ts rest : List Token} {p : Piece}
    (h : readTag stop ts = .ok (p, rest)) : rest.length < ts.length := by
  unfold readTag at h
  split at h
  · cases h
  · split at h
    · cases h
    · split at h
      · cases h
      · split at h
        · cases h
          have := length_rest_readArguments (by assumption)
          simp only [List.length_cons]
          omega
        · cases h

/-- Every piece leaves fewer tokens. -/
theorem length_rest_readPiece {stop : Option LexError} {t : Token} {ts rest : List Token}
    {p : Piece} (h : readPiece stop t ts = .ok (p, rest)) : rest.length < (t :: ts).length := by
  unfold readPiece at h
  split at h
  · cases h
    simp
  · have := length_rest_readTag h
    simp only [List.length_cons]
    omega
  · cases h

/-! ### All pieces -/

/-- The pieces of a list of tokens, and why there are no more of them if not because the
source has ended. -/
structure Pieces where
  /-- What was read. -/
  pieces : List Piece
  /-- What stopped the reading, if not the end of the source. -/
  interruption : Option Interruption
deriving DecidableEq

/-- Reads pieces until the tokens end or a piece is wrong on its own. -/
def readPieces (stop : Option LexError) (tokens : List Token) : Pieces :=
  match tokens with
  | [] => { pieces := [], interruption := stop.map fun e => ⟨.lexical e, []⟩ }
  | t :: ts =>
    match _h : readPiece stop t ts with
    | .error i => { pieces := [], interruption := some i }
    | .ok (piece, rest) =>
      let more := readPieces stop rest
      { more with pieces := piece :: more.pieces }
termination_by tokens.length
decreasing_by exact length_rest_readPiece _h

end TagTemplate
