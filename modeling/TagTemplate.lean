import TagTemplate.Binary64
import TagTemplate.Decimal
import TagTemplate.Vocabulary
import TagTemplate.LexError
import TagTemplate.Text.Scanned
import TagTemplate.Text.Escaped
import TagTemplate.Text.Quoted
import TagTemplate.Token
import TagTemplate.Token.Numeral
import TagTemplate.Token.Lexing
import TagTemplate.Token.Lexer
import TagTemplate.Element
import TagTemplate.LoopHeader
import TagTemplate.Document
import TagTemplate.Visitor
import TagTemplate.ParseError
import TagTemplate.Piece
import TagTemplate.Parse
import TagTemplate.Data
import TagTemplate.Data.Json
import TagTemplate.Data.YamlScalar
import TagTemplate.Data.Yaml
import TagTemplate.Text.Entity
import TagTemplate.Text.Terminal
import TagTemplate.Text.CharacterClass
import TagTemplate.Text.Pattern
import TagTemplate.Markup
import TagTemplate.Outline
import TagTemplate.View
import TagTemplate.Trace.Level
import TagTemplate.Trace.Event
import TagTemplate.Trace.Filter
import TagTemplate.Trace
import TagTemplate.Expectation
import TagTemplate.Sample
import TagTemplate.CommandLine.Arguments
import TagTemplate.CommandLine
import TagTemplate.Main
import TagTemplate.Proofs.Rounding
import TagTemplate.Proofs.Literal
import TagTemplate.Proofs.Lexing
import TagTemplate.Proofs.Element
import TagTemplate.Proofs.Grammar
import TagTemplate.Proofs.NormalForm
import TagTemplate.Proofs.Canonical
import TagTemplate.Proofs.RoundTrip
import TagTemplate.Proofs.Shape
import TagTemplate.Proofs.Lexeme
import TagTemplate.Proofs.Tiling
import TagTemplate.Proofs.Stages
import TagTemplate.Proofs.Concatenation
import TagTemplate.Proofs.LoopBody
import TagTemplate.Proofs.Attribution
import TagTemplate.Proofs.Lockstep
import TagTemplate.Proofs.Layout
import TagTemplate.Proofs.Continuation
import TagTemplate.Proofs.LongestMatch
import TagTemplate.Proofs.Entity
import TagTemplate.Proofs.Markup
import TagTemplate.Proofs.CommandLine
import TagTemplate.Proofs.Outline
import TagTemplate.Proofs.Json
import TagTemplate.Proofs.JsonTree
import TagTemplate.Proofs.Quoted
import TagTemplate.Proofs.Nearest
import TagTemplate.Proofs.Numeral
import TagTemplate.Proofs.Vocabulary
import TagTemplate.Proofs.Cause
import TagTemplate.Proofs.Comparison
import TagTemplate.Proofs.Escaping
import TagTemplate.Proofs.Arguments
