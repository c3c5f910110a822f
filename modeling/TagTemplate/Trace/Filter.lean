import TagTemplate.Text.Pattern
import TagTemplate.Trace.Event

/-!
# Filters

A user chooses what is told with a list of rules, divided by commas. A rule is a level, which
holds for everything; or the beginning of an address, for which everything is told; or such a
beginning and a level behind an equals sign. Behind the address, or in place of it, brackets
can narrow a rule down: to what happens during a named activity, and, in braces, to the events
that carry a value of a certain name, or a value of that name with a certain content.

## Which rule decides

Of the rules that apply to an event, the one with the longest address decides; of those, one
that asks for a value comes before one that does not, and the later name before the earlier
one in the order of names. Of rules that ask for the same, the last one counts. An event to
which no rule applies is not told.

This program names no activities, and the contents of values are not looked at outside of them,
so rules that ask for either apply to no event.

Where a rule is malformed, and where nothing is asked for, warnings and what is worse are told.
Where there is no rule in the list, errors are.

## Main definitions

* `Filter.ofRequest`: the filter that a user asks for.
* `Filter.tells`: whether an event is told.
-/

namespace TagTemplate

namespace Filter

/-- A level for some of the events. -/
structure Rule where
  /-- How the addresses of the events begin. -/
  address : List Char := []
  /-- The activity during which they happen. -/
  activity : Option (List Char) := none
  /-- The name of a value that they carry. -/
  value : Option (List Char) := none
  /-- The content of that value. -/
  content : Option (List Char) := none
  /-- What is told of them. -/
  level : Level
deriving DecidableEq

/-! ### Contents of values -/

/-- Whether a text is the end of a number behind its digits: nothing, or an exponent. -/
def endsNumber : List Char → Bool
  | [] => true
  | c :: cs =>
    let digits :=
      match cs with
      | '+' :: ds | '-' :: ds => ds
      | ds => ds
    (c == 'e' || c == 'E') && !digits.isEmpty && digits.all Char.isDigit

/-- Whether a text is a number without a sign: with digits in front of its point or behind it,
or one of the words for infinity and for no number. -/
def isUnsigned (cs : List Char) : Bool :=
  let whole := cs.takeWhile Char.isDigit
  let word := String.ofList (cs.map Char.toLower)
  if word == "inf" || word == "infinity" || word == "nan" then true
  else
    match cs.dropWhile Char.isDigit with
    | '.' :: rest =>
      let fraction := rest.takeWhile Char.isDigit
      !(whole.isEmpty && fraction.isEmpty) && endsNumber (rest.dropWhile Char.isDigit)
    | rest => !whole.isEmpty && endsNumber rest

/-- Whether a rule can ask for a content: a number, or a pattern. Numbers without a plus sign
are patterns too. -/
def isContent : List Char → Bool
  | '+' :: cs => isUnsigned cs
  | cs => Pattern.isValid cs

/-! ### Reading rules

Blanks at the ends of a rule do not count when its parts are looked for, but the parts are cut
out of the rule as it is written: with blanks in front, every part is cut out that many places
too early. `place` is where the reading stands. -/

/-- A text without the blanks at its end. -/
def trimEnd (cs : List Char) : List Char := (cs.reverse.dropWhile isWhiteSpace).reverse

/-- The characters with which a rule can begin. -/
def begins (c : Char) : Bool :=
  isAlphanumeric c || c == '-' || c == ':' || c == '_' || c == '['

/-- Cuts out so many characters behind a place. -/
def cut (written : List Char) (place size : Nat) : List Char := (written.drop place).take size

/-- The level behind an equals sign; nothing asks for everything. -/
def level? (cs : List Char) : Option Level :=
  if cs.isEmpty then some .trace else Level.ofName? cs

/-- Reads the level of a rule, if there is one. -/
def readLevel (written : List Char) (rule : Rule) (place : Nat) : List Char → Option Rule
  | [] => some rule
  | '=' :: _ => (level? (written.drop (place + 1))).map fun level => { rule with level }
  | _ => none

/-- Reads what stands behind an opening brace. -/
def readValue (written : List Char) (rule : Rule) (place : Nat) (cs : List Char) :
    Option Rule :=
  let size := (cs.takeWhile (· != '}')).length
  let inside := cut written place size
  let content :=
    match inside.dropWhile (· != '=') with
    | [] => none
    | _ :: rest => some (rest.takeWhile (· != '='))
  match cs.drop size with
  | '}' :: ']' :: more =>
    if size == 0 || !content.all isContent then none
    else
      let rule := { rule with value := some (inside.takeWhile (· != '=')), content }
      readLevel written rule (place + size + 2) more
  | _ => none

/-- Reads what stands behind an opening bracket. -/
def readBracket (written : List Char) (rule : Rule) (place : Nat) (cs : List Char) :
    Option Rule :=
  let size := (cs.takeWhile fun c => c != ']' && c != '{').length
  let inside := cut written place size
  match cs.drop size with
  | ']' :: more =>
    readLevel written { rule with activity := some inside } (place + size + 1) more
  | '{' :: more =>
    let activity := if size == 0 then none else some inside
    readValue written { rule with activity } (place + size + 1) more
  | _ => none

/-- Reads a rule. -/
def rule? (written : List Char) : Option Rule :=
  let form := trimEnd (written.dropWhile isWhiteSpace)
  let size := (form.takeWhile fun c => c != '=' && c != '[').length
  let rule : Rule := { address := written.take size, level := .trace }
  if !form.head?.any begins then none
  else
    match form.drop size with
    | [] =>
      some ((Level.ofName? written).elim { address := written, level := .trace }
        fun level => { level })
    | '[' :: more => readBracket written rule (size + 1) more
    | more => readLevel written rule size more

/-- The parts of a list that is divided by commas. -/
def parts : List Char → List (List Char)
  | [] => [[]]
  | c :: cs =>
    match c, parts cs with
    | ',', ps => [] :: ps
    | c, p :: ps => (c :: p) :: ps
    | c, [] => [[c]]

/-! ### Applying rules -/

/-- Whether a rule applies to an event. -/
def Rule.applies (r : Rule) (e : Event) : Bool :=
  r.activity.isNone && r.content.isNone && r.address.isPrefixOf e.address.toList &&
    r.value.all fun name => e.names.any fun n => n.toList == name

/-- Whether a rule decides where another one would, if it comes later. -/
def Rule.precedes (r s : Rule) : Bool :=
  if r.address.length = s.address.length then
    match r.value, s.value with
    | _, none => true
    | none, some _ => false
    | some a, some b => !decide (a < b)
  else s.address.length < r.address.length

/-- The last rule of those that come first. -/
def deciding? : List Rule → Option Rule
  | [] => none
  | r :: rs =>
    match deciding? rs with
    | none => some r
    | some s => if s.precedes r then some s else some r

end Filter

/-- What is told of the events. -/
structure Filter where
  /-- The rules in the order of the user. -/
  rules : List Filter.Rule
deriving DecidableEq

namespace Filter

/-- The same level for everything. -/
def ofLevel (level : Level) : Filter := { rules := [{ level }] }

/-- The filter that a user asks for. -/
def ofRequest : Option String → Filter
  | none => ofLevel .warn
  | some text =>
    match ((parts text.toList).filter fun p => !p.isEmpty).mapM rule? with
    | none => ofLevel .warn
    | some [] => ofLevel .error
    | some rules => { rules }

/-- Whether an event is told. -/
def tells (f : Filter) (e : Event) : Bool :=
  match deciding? (f.rules.filter fun r => r.applies e) with
  | none => false
  | some r => r.level.severity ≤ e.level.severity

end Filter

end TagTemplate
