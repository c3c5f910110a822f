import TagTemplate.Element
import TagTemplate.LexError
import TagTemplate.Token

/-!
# Faults of templates

Why a source is no template: its characters may be wrong, a tag may be wrong on its own, or
the loops may not fit together. Each error is a cause with what is needed to name it; the
wording is in `ParseError.message`, the class in `ParseError.kind`.
-/

namespace TagTemplate

/-- The tags of templates. -/
inductive Tag where
  /-- Shows elements. -/
  | echo
  /-- Begins a loop. -/
  | enter
  /-- Ends a loop. -/
  | leave
deriving DecidableEq

/-- How a tag is named in a template and in messages. -/
def Tag.text : Tag → String
  | echo => "="
  | enter => "FOR"
  | leave => "END"

/-- Why a source is no template. -/
inductive ParseError where
  /-- There is no source. -/
  | missingInput
  /-- The characters are wrong. -/
  | lexical (error : LexError)
  /-- A tag begins with something other than the name of a tag. -/
  | unsupportedTag (head : Token)
  /-- A token that cannot stand in a tag of that name. -/
  | unexpectedInTag (token : Token) (tag : Tag)
  /-- A token that cannot stand outside of tags. -/
  | unexpectedOutside (token : Token)
  /-- An echo tag without elements. -/
  | emptyEcho
  /-- A loop with too few or too many parts in its header. -/
  | loopArity (count : Nat)
  /-- A loop with a part that does not fit into its header. -/
  | loopHeader (error : ElementError)
  /-- The end of a loop, with elements behind it. -/
  | leaveArguments (count : Nat)
  /-- The end of a loop where none is open. -/
  | unmatchedLeave
  /-- Loops still open at the end of the source. -/
  | unclosedLoops (count : Nat)
deriving DecidableEq

/-- The classes of errors. -/
inductive ParseErrorKind where
  | missingInput
  | lexical (fault : LexFault)
  | unsupportedTag
  | invalidArguments
  | unmatchedEnd
  | unclosedFor
  | unexpectedToken
deriving DecidableEq

namespace ParseError

/-- The class of an error. -/
def kind : ParseError → ParseErrorKind
  | missingInput => .missingInput
  | lexical e => .lexical e.fault
  | unsupportedTag _ => .unsupportedTag
  | unexpectedInTag _ _ | unexpectedOutside _ => .unexpectedToken
  | emptyEcho | loopArity _ | loopHeader _ | leaveArguments _ => .invalidArguments
  | unmatchedLeave => .unmatchedEnd
  | unclosedLoops _ => .unclosedFor

/-- Whether the characters of the source are wrong. -/
def isLexical : ParseError → Bool
  | lexical _ => true
  | _ => false

/-- What a tag is called whose head is no tag name. -/
def headMessage : Token → String
  | .tagClose => "empty tag"
  | .name n => "unsupported tag '" ++ n.text ++ "'"
  | t => "unsupported tag '" ++ t.display ++ "'"

/-- The message of an error. -/
def message : ParseError → String
  | missingInput => "no document to parse"
  | lexical e => e.message
  | unsupportedTag head => headMessage head
  | unexpectedInTag t tag => "unexpected " ++ t.display ++ " in " ++ tag.text ++ " tag"
  | unexpectedOutside t => "unexpected " ++ t.display ++ " outside of a tag"
  | emptyEcho => "echo tag needs at least one element"
  | loopArity n => "FOR takes 3 or 4 arguments, found " ++ Nat.repr n
  | loopHeader e => e.message
  | leaveArguments n => "END takes no arguments, found " ++ Nat.repr n
  | unmatchedLeave => "END without a matching FOR"
  | unclosedLoops n => Nat.repr n ++ " FOR tag(s) not closed before end of input"

/-- The message of an error, saying that it is one of the template. -/
def display (e : ParseError) : String := "parse error: " ++ e.message

end ParseError

end TagTemplate
