/-!
# Names and operators

The words tags are made of. A name is an ASCII letter followed by ASCII letters, digits and
underscores; variables, functions and tag names all follow this one rule. Operators are five
single characters. Both are types of their own, so that a value of type `Identifier` or
`Operator` is well formed wherever it came from.
-/

namespace TagTemplate

/-! ### Names -/

/-- Letters a name can begin with: the ASCII letters. -/
def isNameStart (c : Char) : Bool := c.isAlpha

/-- Characters a name can go on with: ASCII letters, digits and the underscore. -/
def isNamePart (c : Char) : Bool := c.isAlphanum || c == '_'

/-- A letter followed by name characters, and nothing else. -/
def isName : List Char → Bool
  | [] => false
  | c :: cs => isNameStart c && cs.all isNamePart

/-- A well-formed name. -/
structure Identifier where
  /-- The name as written. -/
  text : String
  /-- It is a name. -/
  isName_text : isName text.toList = true
deriving DecidableEq

namespace Identifier

/-- The name written as `text`, if that is one. -/
def ofString? (text : String) : Option Identifier :=
  if h : isName text.toList = true then some ⟨text, h⟩ else none

/-- Equality up to the case of ASCII letters. -/
def matchesWord (name : Identifier) (word : String) : Bool :=
  name.text.toList.map Char.toUpper == word.toList.map Char.toUpper

/-- The longest name at the head of the input, with what follows it. -/
def scan? : List Char → Option (Identifier × List Char)
  | [] => none
  | c :: cs =>
    if h : isNameStart c = true then
      some (⟨String.ofList (c :: cs.takeWhile isNamePart), by simp [isName, h]⟩,
        cs.dropWhile isNamePart)
    else none

end Identifier

/-! ### Operators -/

/-- The five operators. -/
inductive Operator where
  | add
  | subtract
  | multiply
  | divide
  | power
deriving DecidableEq

namespace Operator

/-- All operators, in their customary order. -/
def all : List Operator := [add, subtract, multiply, divide, power]

/-- The character an operator is written as. -/
def symbol : Operator → Char
  | add => '+'
  | subtract => '-'
  | multiply => '*'
  | divide => '/'
  | power => '^'

/-- The operator written as a character, if there is one. -/
def ofChar? (c : Char) : Option Operator := all.find? (·.symbol == c)

/-- An operator as text. -/
def text (op : Operator) : String := String.singleton op.symbol

end Operator

end TagTemplate
