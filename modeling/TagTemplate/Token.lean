import TagTemplate.Decimal
import TagTemplate.Vocabulary

/-!
# Tokens

The pieces a template is made of: runs of literal text, the marks that open and close a tag,
and what stands inside tags. Each token has a short text of its own, used to list tokens and
to name them in messages.
-/

namespace TagTemplate

/-- A token of a template. -/
inductive Token where
  /-- A run of literal text, its escapes resolved. -/
  | text (content : String)
  /-- The mark that opens a tag. -/
  | tagOpen
  /-- The mark that closes a tag. -/
  | tagClose
  /-- The equals sign. -/
  | echo
  /-- A name. -/
  | name (name : Identifier)
  /-- A function name, written behind an at sign. -/
  | function (name : Identifier)
  /-- A whole number. -/
  | integer (value : Int32)
  /-- A number with a point. -/
  | double (value : Binary64)
  /-- A quoted string, its escapes resolved. -/
  | string (value : String)
  /-- An operator. -/
  | operator (op : Operator)
  /-- The end of the input. -/
  | eof
deriving DecidableEq

namespace Token

/-- Doubles in token texts: always positional, a whole number without a point, an exact tie
between two shortest candidates going up. -/
def numberStyle : NumberStyle where
  tie := .up
  positional := fun _ => true
  wholeSuffix := ""
  exponentPlus := ""
  nan := "NaN"
  infinity := "inf"

/-- The text of a token. -/
def display : Token → String
  | text content => "<text:" ++ content ++ ">"
  | tagOpen => "<tag-open>"
  | tagClose => "<tag-close>"
  | echo => "<echo>"
  | name n => "<name:" ++ n.text ++ ">"
  | function n => "<function:" ++ n.text ++ ">"
  | integer value => "<integer:" ++ Int.repr value.toInt ++ ">"
  | double value => "<double:" ++ numberStyle.render value ++ ">"
  | string value => "<string:" ++ value ++ ">"
  | operator op => "<operator:" ++ op.text ++ ">"
  | eof => "<eof>"

/-- Tokens that occur behind a tag opener, the closing mark included. -/
def isTagContent : Token → Bool
  | text _ | tagOpen | eof => false
  | _ => true

/-- Tokens that stand for an element of a tag. -/
def isElement : Token → Bool
  | name _ | function _ | integer _ | double _ | string _ | operator _ => true
  | _ => false

end Token

end TagTemplate
