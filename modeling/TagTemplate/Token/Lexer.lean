import TagTemplate.Token.Lexing

/-!
# Reading a source token by token

A `Lexer` hands out the tokens of a source one at a time and remembers the last one, its span,
and the mode in which the next characters will be read. A run of text is complete only once the
tag opener behind it has been seen, so behind such a run the mode is already `tag`, although
the opener itself is still to be handed out.

The first fault exhausts the lexer: it keeps the last good token and span, and from then on
only the end of the input is handed out.
-/

namespace TagTemplate

/-- A source in the course of being read. -/
structure Lexer where
  /-- The input still to be read and how to read it; nothing once the lexer is exhausted. -/
  input : Option (Mode × List Char)
  /-- The byte offset of that input. -/
  offset : Nat
  /-- The number of bytes of the whole source. -/
  size : Nat
  /-- The mode in which characters are read next. -/
  mode : Mode
  /-- The token handed out last. -/
  token : Option Token
  /-- The span of that token. -/
  span : Span

namespace Lexer

/-- A source of which nothing has been read. -/
def ofSource (source : String) : Lexer where
  input := some (.text, source.toList)
  offset := 0
  size := byteLength source.toList
  mode := .text
  token := none
  span := ⟨0, 0⟩

/-- Hands out the end of the input, for now and ever after. -/
def finish (l : Lexer) : Lexer :=
  { l with input := none, mode := .text, token := some .eof, span := ⟨l.size, l.size⟩ }

/-- The mode behind a token: that of the input, except that behind a run of text which does not
end the source the tag opener has been seen already. -/
def modeBehind (token : Token) (mode : Mode) (rest : List Char) : Mode :=
  match token with
  | .text _ => if rest.isEmpty then .text else .tag
  | _ => mode

/-- Hands out the next token, or the fault in its place. -/
def next (l : Lexer) : Except LexError Token × Lexer :=
  match l.input with
  | none => (.ok .eof, l.finish)
  | some (mode, cs) =>
    match step mode cs with
    | .finished => (.ok .eof, l.finish)
    | .fault passed fault =>
      (.error ⟨fault, l.offset + byteLength passed⟩, { l with input := none, mode := .text })
    | .token lexeme mode' rest =>
      let start := l.offset + byteLength lexeme.gap
      let stop := start + byteLength lexeme.chars
      (.ok lexeme.token,
        { l with
          input := some (mode', rest)
          offset := stop
          mode := modeBehind lexeme.token mode' rest
          token := some lexeme.token
          span := ⟨start, stop⟩ })

end Lexer

end TagTemplate
