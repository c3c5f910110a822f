import TagTemplate.Text.CharacterClass

/-!
# Patterns

Regular expressions, as far as telling those that can be used from those that cannot. A pattern
is a choice between sequences of parts; a part is a character, an escape, a set of characters
in brackets, or a group in parentheses, and can be repeated. `Pattern.isValid` reads a pattern
from left to right with a stack of what is open, and keeps nothing of it but how deep it nests.

## Modes

A group can change how the pattern is read up to its end. In the spaced mode blanks and comments
are skipped. Outside of the unicode mode a pattern is about bytes, and then it must not match
anything but whole characters: it has no dot, no complements, no properties of characters, and
only ASCII in its sets.

## Boundaries of words

A pattern is meant for an automaton that looks at one byte at a time, which cannot tell where a
word of a script other than ASCII ends. So boundaries of words are refused in the unicode mode.

## Counted repetitions

A count needs a closing brace. Patterns stand between braces themselves and never hold one, so
an opening brace outside of a set is always unclosed.
-/

namespace TagTemplate.Pattern

/-- How a pattern is read at a place. -/
structure Modes where
  /-- Whether blanks and comments are skipped. -/
  spaced : Bool := false
  /-- Whether the pattern is about characters and not about bytes. -/
  unicode : Bool := true
deriving DecidableEq

/-- Skips blanks and comments; a comment goes up to the end of its line. -/
def skipSpace (comment : Bool) : List Char → List Char
  | [] => []
  | c :: cs =>
    if comment then skipSpace (c != '\n') cs
    else if isWhiteSpace c then skipSpace false cs
    else if c == '#' then skipSpace true cs
    else c :: cs

/-- Skips what does not count. -/
def Modes.skip (m : Modes) (cs : List Char) : List Char :=
  if m.spaced then skipSpace false cs else cs

/-! ### Nesting -/

/-- Parts that stand side by side. -/
structure Parts where
  /-- How many there are. -/
  size : Nat := 0
  /-- How deep the deepest of them nests. -/
  deepest : Nat := 0
deriving DecidableEq

/-- Adds a part. -/
def Parts.add (p : Parts) (depth : Nat) : Parts :=
  { size := p.size + 1, deepest := max p.deepest depth }

/-- How deep parts nest together; a part alone adds nothing. -/
def Parts.depth (p : Parts) : Nat := if p.size ≤ 1 then p.deepest else p.deepest + 1

/-! ### Escapes -/

/-- What an escape, or a character alone, stands for. -/
inductive Atom where
  /-- A character, which may be written as the code of a byte. -/
  | literal (char : Char) (byte : Bool)
  /-- Digits, words or white space, or everything else. -/
  | shorthand (complement : Bool)
  /-- The characters with a property. -/
  | property
  /-- The beginning or the end of the text. -/
  | boundary
  /-- The boundary of a word. -/
  | wordBoundary
deriving DecidableEq

/-- Whether an atom can stand outside of sets. -/
def Atom.fits (m : Modes) : Atom → Bool
  | literal c byte => m.unicode || !byte || c.toNat < 0x80
  | shorthand complement => m.unicode || !complement
  | property => m.unicode
  | boundary => true
  | wordBoundary => !m.unicode

/-- Whether an atom can stand inside a set. -/
def Atom.fitsSet (m : Modes) : Atom → Bool
  | literal c _ => m.unicode || c.toNat < 0x80
  | shorthand complement => m.unicode || !complement
  | property => m.unicode
  | boundary | wordBoundary => false

/-- The value of a hexadecimal digit. -/
def hexValue? (c : Char) : Option Nat :=
  if c.isDigit then some (c.toNat - '0'.toNat)
  else if 'a' ≤ c && c ≤ 'f' then some (c.toNat - 'a'.toNat + 10)
  else if 'A' ≤ c && c ≤ 'F' then some (c.toNat - 'A'.toNat + 10)
  else none

/-- Reads so many hexadecimal digits behind a value. -/
def readHex (m : Modes) : Nat → Nat → List Char → Option (Nat × List Char)
  | 0, value, cs => some (value, cs)
  | count + 1, value, cs =>
    match m.skip cs with
    | [] => none
    | c :: more => (hexValue? c).bind fun digit => readHex m count (value * 16 + digit) more

/-- Reads the code of a character. -/
def readCode (m : Modes) (digits : Nat) (cs : List Char) : Option (Atom × List Char) :=
  match readHex m digits 0 cs with
  | none => none
  | some (value, more) =>
    if value < 0xd800 || (0xdfff < value && value < 0x110000) then
      some (.literal (Char.ofNat value) (digits == 2), more)
    else none

/-- Reads what stands behind a backslash. -/
def readEscape (m : Modes) : List Char → Option (Atom × List Char)
  | [] => none
  | 'x' :: cs => readCode m 2 cs
  | 'u' :: cs => readCode m 4 cs
  | 'U' :: cs => readCode m 8 cs
  | c :: cs =>
    if c == 'p' || c == 'P' then
      match m.skip cs with
      | [] => none
      | letter :: more =>
        if "CLMNPSZ".toList.contains letter.toUpper then some (.property, more) else none
    else if c == 'd' || c == 's' || c == 'w' then some (.shorthand false, cs)
    else if c == 'D' || c == 'S' || c == 'W' then some (.shorthand true, cs)
    else if c == 'A' || c == 'z' then some (.boundary, cs)
    else if c == 'b' || c == 'B' || c == '<' || c == '>' then some (.wordBoundary, cs)
    else if c == 'a' then some (.literal '\x07' false, cs)
    else if c == 'f' then some (.literal '\x0c' false, cs)
    else if c == 't' then some (.literal '\t' false, cs)
    else if c == 'n' then some (.literal '\n' false, cs)
    else if c == 'r' then some (.literal '\r' false, cs)
    else if c == 'v' then some (.literal '\x0b' false, cs)
    else if c.isAlphanum || 0x80 ≤ c.toNat then none
    else some (.literal c false, cs)

/-! ### Sets -/

/-- A set under way. -/
structure OpenSet where
  /-- Whether it is a complement. -/
  complement : Bool
  /-- How deep what stands in front of the last operator nests, if there is one. -/
  left : Option Nat := none
  /-- What stands behind it. -/
  parts : Parts := {}
deriving DecidableEq

/-- Adds a part to a set. -/
def OpenSet.add (s : OpenSet) (depth : Nat) : OpenSet := { s with parts := s.parts.add depth }

/-- How deep the inside of a set nests. -/
def OpenSet.depth (s : OpenSet) : Nat :=
  s.left.elim s.parts.depth fun left => max left s.parts.depth + 1

/-- Takes an operator between two sets. -/
def OpenSet.operate (s : OpenSet) : OpenSet := { s with left := some s.depth, parts := {} }

/-- The names of sets of ASCII characters. -/
def setNames : List String :=
  ["alnum", "alpha", "ascii", "blank", "cntrl", "digit", "graph", "lower", "print", "punct",
   "space", "upper", "word", "xdigit"]

/-- Reads a named set behind its opening bracket: whether it is a complement, and the rest. -/
def readNamedSet : List Char → Option (Bool × List Char)
  | ':' :: cs =>
    let (complement, body) :=
      match cs with
      | '^' :: body => (true, body)
      | body => (false, body)
    match body.dropWhile (· != ':') with
    | ':' :: ']' :: more =>
      if setNames.contains (String.ofList (body.takeWhile (· != ':'))) then
        some (complement, more)
      else none
    | _ => none
  | _ => none

/-- The character behind blanks and the beginning of a comment. -/
def nextSeen (comment : Bool) : List Char → Option Char
  | [] => none
  | c :: cs =>
    if isWhiteSpace c then nextSeen comment cs
    else if c == '#' && !comment then nextSeen true cs
    else some c

/-- The character that decides whether a hyphen stands for itself. -/
def Modes.peek (m : Modes) (cs : List Char) : Option Char :=
  if m.spaced then (nextSeen false cs).or cs.head? else cs.head?

/-- Reads a character or an escape of a set. -/
def readMember (m : Modes) : List Char → Option (Atom × List Char)
  | [] => none
  | '\\' :: cs => readEscape m cs
  | c :: cs => some (.literal c false, cs)

/-- Reads a member of a set, or a range from one character to another. -/
def readRange (m : Modes) (cs : List Char) : Option (List Char) := do
  let (first, rest) ← readMember m cs
  let single := if first.fitsSet m then some (m.skip rest) else none
  match m.skip rest with
  | [] => none
  | '-' :: more =>
    if m.peek more = some ']' || m.peek more = some '-' then single
    else
      let (last, rest) ← readMember m (m.skip more)
      match first, last with
      | .literal a _, .literal b _ =>
        if a ≤ b && first.fitsSet m && last.fitsSet m then some rest else none
      | _, _ => none
  | _ => single

/-- Opens a set behind its bracket. -/
def openSet (m : Modes) (cs : List Char) : OpenSet × List Char :=
  match m.skip cs with
  | '^' :: more => ({ complement := true }, more)
  | more => ({ complement := false }, more)

/-- Reads a set up to its end: how deep it nests, and the rest. Directly behind its bracket a
set is fresh: there hyphens stand for themselves, and so does a closing bracket in front of
everything else. Every step takes a character off, so `fuel` need not exceed their number. -/
def readSet (m : Modes) (fuel : Nat) (outer : List OpenSet) (s : OpenSet) (fresh : Bool)
    (cs : List Char) : Option (Nat × List Char) :=
  match fuel with
  | 0 => none
  | fuel + 1 =>
    match fresh, m.skip cs with
    | _, [] => none
    | true, '-' :: more => readSet m fuel outer (s.add 0) true more
    | fresh, ']' :: more =>
      if fresh && s.parts.size == 0 then readSet m fuel outer (s.add 0) false more
      else if s.complement && !m.unicode then none
      else
        match outer with
        | [] => some (s.depth + 1, more)
        | parent :: outer => readSet m fuel outer (parent.add (s.depth + 1)) false more
    | _, '[' :: more =>
      match readNamedSet more with
      | some (complement, more) =>
        if complement && !m.unicode then none else readSet m fuel outer (s.add 0) false more
      | none =>
        let (inner, more) := openSet m more
        readSet m fuel (s :: outer) inner true more
    | _, '&' :: '&' :: more | _, '-' :: '-' :: more | _, '~' :: '~' :: more =>
      readSet m fuel outer s.operate false more
    | _, cs => (readRange m cs).bind fun more => readSet m fuel outer (s.add 0) false more

/-! ### Groups -/

/-- What an opening parenthesis begins: a group, or a change of modes in this one. -/
inductive Opening where
  | group (modes : Modes) (name : Option (List Char))
  | change (modes : Modes)

/-- Whether a text can be the name of a group. -/
def isName : List Char → Bool
  | [] => false
  | c :: cs =>
    (c == '_' || isAlphabetic c) &&
      cs.all fun c => c == '_' || c == '.' || c == '[' || c == ']' || isAlphanumeric c

/-- Reads the name of a group. -/
def readName (m : Modes) (cs : List Char) : Option (Opening × List Char) :=
  let name := cs.takeWhile (· != '>')
  match cs.dropWhile (· != '>') with
  | [] => none
  | _ :: more => if isName name then some (.group m (some name), more) else none

/-- Whether flags are those that exist, each at most once, with at most one minus sign and
something behind it. -/
def areFlags (flags : List Char) : Bool :=
  flags.all "imsUuRx-".toList.contains && decide flags.Nodup && flags.getLast? != some '-'

/-- What flags make of a mode. -/
def switched (flags : List Char) (flag : Char) (mode : Bool) : Bool :=
  if (flags.takeWhile (· != '-')).contains flag then true
  else if flags.contains flag then false
  else mode

/-- Reads flags up to the end of the group, or to the colon behind which its content begins. -/
def readFlags (m : Modes) (cs : List Char) : Option (Opening × List Char) :=
  let flags := cs.takeWhile fun c => c != ':' && c != ')'
  let modes : Modes :=
    { spaced := switched flags 'x' m.spaced, unicode := switched flags 'u' m.unicode }
  if !areFlags flags then none
  else
    match cs.dropWhile fun c => c != ':' && c != ')' with
    | ':' :: more => some (.group modes none, more)
    | ')' :: more => if flags.isEmpty then none else some (.change modes, more)
    | _ => none

/-- Reads what stands behind an opening parenthesis. -/
def readOpening (m : Modes) (cs : List Char) : Option (Opening × List Char) :=
  match m.skip cs with
  | '?' :: 'P' :: '<' :: more => readName m more
  | '?' :: '<' :: more => readName m more
  | '?' :: more => readFlags m more
  | more => some (.group m none, more)

/-! ### Whole patterns -/

/-- A group under way, or the whole pattern. -/
structure OpenGroup where
  /-- How the rest of it is read. -/
  modes : Modes := {}
  /-- How deep the finished branches of a choice nest, if there are any. -/
  branches : Option Nat := none
  /-- The parts of the branch under way. -/
  parts : Parts := {}
  /-- How deep the part nests that can be repeated now, if there is one. -/
  last : Option Nat := none
deriving DecidableEq

/-- Adds a part to a group. -/
def OpenGroup.add (g : OpenGroup) (depth : Nat) : OpenGroup :=
  { g with parts := g.parts.add depth, last := some depth }

/-- Repeats the last part of a group. -/
def OpenGroup.repeat? (g : OpenGroup) : Option OpenGroup :=
  g.last.map fun depth =>
    { g with
      parts := { g.parts with deepest := max g.parts.deepest (depth + 1) }
      last := some (depth + 1) }

/-- Begins another branch of a choice. -/
def OpenGroup.branch (g : OpenGroup) : OpenGroup :=
  { modes := g.modes, branches := some (max (g.branches.getD 0) g.parts.depth) }

/-- How deep the inside of a group nests. -/
def OpenGroup.depth (g : OpenGroup) : Nat :=
  g.branches.elim g.parts.depth fun branches => max branches g.parts.depth + 1

/-- Reads a pattern up to its end: how deep it nests. The names of its groups differ. Every step
takes a character off, so `fuel` need not exceed their number by more than one. -/
def read (fuel : Nat) (names : List (List Char)) (outer : List OpenGroup) (g : OpenGroup)
    (cs : List Char) : Option Nat :=
  match fuel with
  | 0 => none
  | fuel + 1 =>
    match g.modes.skip cs with
    | [] => if outer.isEmpty then some g.depth else none
    | '(' :: more =>
      match readOpening g.modes more with
      | none => none
      | some (.change modes, more) =>
        read fuel names outer { g with modes, parts := g.parts.add 0, last := none } more
      | some (.group modes none, more) => read fuel names (g :: outer) { modes } more
      | some (.group modes (some name), more) =>
        if names.contains name then none
        else read fuel (name :: names) (g :: outer) { modes } more
    | ')' :: more =>
      match outer with
      | [] => none
      | parent :: outer => read fuel names outer (parent.add (g.depth + 1)) more
    | '|' :: more => read fuel names outer g.branch more
    | '[' :: more =>
      let (s, inside) := openSet g.modes more
      match readSet g.modes (inside.length + 1) [] s true inside with
      | none => none
      | some (depth, more) => read fuel names outer (g.add depth) more
    | '?' :: more | '*' :: more | '+' :: more =>
      let more :=
        match more with
        | '?' :: more => more
        | more => more
      g.repeat?.bind fun g => read fuel names outer g more
    | '{' :: _ => none
    | '\\' :: more =>
      match readEscape g.modes more with
      | none => none
      | some (atom, more) =>
        if atom.fits g.modes then read fuel names outer (g.add 0) more else none
    | '.' :: more => if g.modes.unicode then read fuel names outer (g.add 0) more else none
    | _ :: more => read fuel names outer (g.add 0) more

/-- How deep a pattern may nest. -/
def depthLimit : Nat := 250

/-- Whether a text is a pattern that can be used. -/
def isValid (cs : List Char) : Bool :=
  (read (cs.length + 1) [] [] {} cs).any (· ≤ depthLimit)

end TagTemplate.Pattern
