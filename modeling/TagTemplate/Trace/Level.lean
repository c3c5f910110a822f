/-!
# Levels

A level says how much is told: it stands for itself and for everything more severe. Users name
a level in letters of either case, or by its number.

## Main definitions

* `Level`: how much is told.
* `Level.ofName?`: the level that a user names.
-/

namespace TagTemplate

/-- How much is told; each level includes those behind it. -/
inductive Level where
  | trace
  | debug
  | info
  | warn
  | error
  | off
deriving DecidableEq

namespace Level

/-- Higher is more severe. -/
def severity : Level → Nat
  | trace => 0
  | debug => 1
  | info => 2
  | warn => 3
  | error => 4
  | off => 5

/-- How a level is called at the head of a line. -/
def title : Level → String
  | trace => "TRACE"
  | debug => "DEBUG"
  | info => "INFO"
  | warn => "WARN"
  | error => "ERROR"
  | off => "OFF"

/-- All levels, each at the place of its number. -/
def all : List Level := [off, error, warn, info, debug, trace]

/-- The level of a number, which may have a plus sign in front. -/
def ofNumber? (cs : List Char) : Option Level :=
  let digits :=
    match cs with
    | '+' :: ds => ds
    | ds => ds
  if !digits.isEmpty && digits.all Char.isDigit then all[Nat.ofDigitChars 10 digits 0]? else none

/-- The level of a name or of a number. -/
def ofName? (cs : List Char) : Option Level :=
  match ofNumber? cs with
  | some level => some level
  | none => all.find? fun level => level.title.toList == cs.map Char.toUpper

end Level

end TagTemplate
