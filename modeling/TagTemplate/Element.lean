import TagTemplate.Decimal
import TagTemplate.Text.Quoted
import TagTemplate.Vocabulary

/-!
# Elements of tags

What tags are filled with: constants, strings, variables, functions and operators. An element
has a text by which it is written in a template. Reading that text again gives the same
element, unless it is an infinite double or NaN, which templates have no words for; that is why
a double always shows a point there.

Elements are compared up to a small tolerance on doubles. A whole number and a double are
never the same element, whatever their values.
-/

namespace TagTemplate

/-- An element of a tag. -/
inductive Element where
  /-- A whole number. -/
  | integer (value : Int32)
  /-- A double. -/
  | double (value : Binary64)
  /-- A string. -/
  | string (value : String)
  /-- A variable. -/
  | var (name : Identifier)
  /-- A function. -/
  | function (name : Identifier)
  /-- An operator. -/
  | operator (op : Operator)
deriving DecidableEq

namespace Element

/-- What sort of element it is, in a word. -/
def kind : Element → String
  | integer _ => "integer"
  | double _ => "double"
  | string _ => "string"
  | var _ => "variable"
  | function _ => "function"
  | operator _ => "operator"

/-- Doubles in templates: always positional and always with a point, an exact tie between two
shortest candidates going up. -/
def numberStyle : NumberStyle where
  tie := .up
  positional := fun _ => true
  wholeSuffix := ".0"
  exponentPlus := ""
  nan := "NaN"
  infinity := "inf"

/-- An element as it is written in a tag. -/
def text : Element → String
  | integer value => Int.repr value.toInt
  | double value => numberStyle.render value
  | string value => Quoted.quote value
  | var name => name.text
  | function name => "@" ++ name.text
  | operator op => op.text

/-- Whether it is a variable. -/
def isVariable : Element → Bool
  | var _ => true
  | _ => false

/-- Whether it can bound a loop: whole numbers, doubles and variables can. -/
def isBound : Element → Bool
  | integer _ | double _ | var _ => true
  | _ => false

/-! ### Comparison -/

/-- How far apart two doubles may be and still count as the same element: one millionth. -/
def tolerance : Binary64 := Decimal.toBinary64 false { digits := 1, exponent := -6 }

/-- Doubles that are the same number or nearer to each other than the tolerance. -/
def near (x y : Binary64) : Bool :=
  x.sameValue y || (x.absDiff y).less tolerance

/-- The same element, doubles being compared up to the tolerance. -/
def agrees : Element → Element → Bool
  | integer a, integer b => a == b
  | double a, double b => near a b
  | string a, string b => a == b
  | var a, var b => a == b
  | function a, function b => a == b
  | operator a, operator b => a == b
  | _, _ => false

end Element

/-- The first of several elements agrees with the first of the others, the second with the
second and so on, and there are as many of them. -/
def Element.agreesAll : List Element → List Element → Bool
  | [], [] => true
  | a :: as, b :: bs => a.agrees b && Element.agreesAll as bs
  | _, _ => false

/-! ### Checked construction -/

/-- Why something cannot be an element, or not in its place. -/
inductive ElementError where
  /-- No name. -/
  | invalidIdentifier (text : String)
  /-- No operator. -/
  | invalidOperator (c : Char)
  /-- Something other than a variable to run a loop. -/
  | invalidLoopVariable (found : Element)
  /-- Something that cannot bound a loop. -/
  | invalidLoopBound (found : Element)
deriving DecidableEq

namespace ElementError

/-- An element with its sort, as messages name it. -/
def describe (e : Element) : String := e.kind ++ " '" ++ e.text ++ "'"

/-- The message of an error. -/
def message : ElementError → String
  | invalidIdentifier text => "invalid identifier '" ++ text ++ "'"
  | invalidOperator c => "invalid operator '" ++ String.singleton c ++ "'"
  | invalidLoopVariable found =>
    "loop variable must be a variable name, found " ++ describe found
  | invalidLoopBound found =>
    "loop bounds must be integers, doubles or variables, found " ++ describe found

end ElementError

namespace Element

/-- A name, or the error that it is none. -/
def nameOf (text : String) : Except ElementError Identifier :=
  match Identifier.ofString? text with
  | some name => .ok name
  | none => .error (.invalidIdentifier text)

/-- The variable of that name. -/
def ofVariable (text : String) : Except ElementError Element :=
  (nameOf text).map var

/-- The function of that name. -/
def ofFunction (text : String) : Except ElementError Element :=
  (nameOf text).map function

/-- The operator written so. -/
def ofOperator (c : Char) : Except ElementError Element :=
  match Operator.ofChar? c with
  | some op => .ok (operator op)
  | none => .error (.invalidOperator c)

end Element

end TagTemplate
