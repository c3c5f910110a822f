import TagTemplate.Decimal

/-!
# Strings in YAML

A string is written plainly where that is read back as the same string, and between quotes or
as a literal block otherwise. First the wanted style: literal for several lines, quoted for
what would be read as something other than a string, plain for the rest. Where the characters
do not allow that style the next one is taken, and double quotes, which can write everything,
come last.

## Main definitions

* `looksTyped`: texts that are read as null, as a truth value or as a number.
* `styleOf`: the style a string is written in.
* `scalar`: the string in that style.
-/

namespace TagTemplate.Yaml

/-! ### Classes of characters -/

/-- Characters that end a line. -/
def isBreak (c : Char) : Bool :=
  c == '\r' || c == '\n' || c == '\u0085' || c == '\u2028' || c == '\u2029'

/-- Blanks, line ends and the null character. -/
def isBlankOrBreak (c : Char) : Bool :=
  c == ' ' || c == '\t' || c == '\x00' || isBreak c

/-- Characters that need no escape. Tabs and carriage returns do. -/
def isPrintable (c : Char) : Bool :=
  let n := c.toNat
  c == '\n' || (0x20 ≤ n && n ≤ 0x7e) || (0xa0 ≤ n && n ≤ 0xd7ff) ||
    (0xe000 ≤ n && n ≤ 0xfffd && n != 0xfeff) || 0x10000 ≤ n

/-- Whether some two neighbours are related. -/
def anyNeighbours (related : Char → Char → Bool) : List Char → Bool
  | a :: b :: cs => related a b || anyNeighbours related (b :: cs)
  | _ => false

/-! ### Texts that are read as something else -/

/-- Takes a sign off, if there is one. -/
def dropSign : List Char → List Char
  | '+' :: cs => cs
  | '-' :: cs => cs
  | cs => cs

/-- Words for null and the truth values. -/
def reservedWords : List String :=
  ["null", "Null", "NULL", "~", "true", "True", "TRUE", "false", "False", "FALSE"]

/-- Digits with a zero in front that says nothing. -/
def isPadded (cs : List Char) : Bool :=
  match dropSign cs with
  | '0' :: d :: ds => (d :: ds).all Char.isDigit
  | _ => false

/-- The value of a digit in bases up to sixteen. -/
def digitValue? (c : Char) : Option Nat :=
  if c.isDigit then some (c.toNat - '0'.toNat)
  else if 'a' ≤ c ∧ c ≤ 'f' then some (c.toNat - 'a'.toNat + 10)
  else if 'A' ≤ c ∧ c ≤ 'F' then some (c.toNat - 'A'.toNat + 10)
  else none

/-- The number written with digits of a base, if all characters are such digits. -/
def valueIn? (base : Nat) (digits : List Char) : Option Nat :=
  if digits.isEmpty then none
  else
    digits.foldlM (fun acc c =>
      match digitValue? c with
      | some d => if d < base then some (acc * base + d) else none
      | none => none) 0

/-- Whole numbers with a base in front, from `-2 ^ 127` to `2 ^ 128 - 1`. -/
def isBased (cs : List Char) : Bool :=
  let negative := cs.head? == some '-'
  let value? :=
    match dropSign cs with
    | '0' :: 'x' :: digits => valueIn? 16 digits
    | '0' :: 'o' :: digits => valueIn? 8 digits
    | '0' :: 'b' :: digits => valueIn? 2 digits
    | _ => none
  match value? with
  | some n => if negative then decide (n ≤ twoTo 127) else decide (n < twoTo 128)
  | none => false

/-- The whole part, the fraction and the exponent of a decimal number, if the text is one: digits
with at most one point among them, and maybe an exponent. -/
def decimalParts? (cs : List Char) : Option (List Char × List Char × Int) :=
  let whole := cs.takeWhile Char.isDigit
  let behind := cs.dropWhile Char.isDigit
  let (fraction, tail) :=
    match behind with
    | '.' :: more => (more.takeWhile Char.isDigit, more.dropWhile Char.isDigit)
    | _ => ([], behind)
  if whole.isEmpty && fraction.isEmpty then none
  else
    match tail with
    | [] => some (whole, fraction, 0)
    | mark :: power =>
      let digits := dropSign power
      if (mark == 'e' || mark == 'E') && !digits.isEmpty && digits.all Char.isDigit then
        let size : Int := Nat.ofDigitChars 10 digits 0
        some (whole, fraction, if power.head? == some '-' then -size else size)
      else none

/-- Whether a number with `10 ^ (point - 1) ≤ value` and `value < 10 ^ point` is a finite double;
only near the end of the range does that depend on its digits. -/
def isFiniteAt (digits : Nat) (point exponent : Int) : Bool :=
  if point ≤ 308 then true
  else if 310 ≤ point then false
  else (Decimal.toBinary64 false { digits, exponent }).isFinite

/-- Decimal numbers that are finite as a double. -/
def isFiniteDecimal (cs : List Char) : Bool :=
  match decimalParts? (dropSign cs) with
  | none => false
  | some (whole, fraction, exponent) =>
    let significant := (whole ++ fraction).dropWhile (· == '0')
    let scale := exponent - fraction.length
    significant.isEmpty ||
      isFiniteAt (Nat.ofDigitChars 10 significant 0) (significant.length + scale) scale

/-- Words for infinity, which may have a sign, and for NaN, which may not. -/
def isSpecialNumber (cs : List Char) : Bool :=
  [".inf", ".Inf", ".INF"].contains (String.ofList (dropSign cs)) ||
    [".nan", ".NaN", ".NAN"].contains (String.ofList cs)

/-- Texts that, written plainly, would not be read as strings. -/
def looksTyped (s : String) : Bool :=
  let cs := s.toList
  cs.isEmpty || reservedWords.contains s || isPadded cs || isBased cs || isFiniteDecimal cs ||
    isSpecialNumber cs

/-! ### Styles -/

/-- The ways to write a string. -/
inductive Style where
  | plain
  | single
  | double
  | literal
deriving DecidableEq

/-- Characters with a meaning of their own at the beginning of a plain text. -/
def indicators : List Char :=
  ['#', ',', '[', ']', '{', '}', '&', '*', '!', '|', '>', '\'', '"', '%', '@', '\x60']

/-- Whether the beginning of a text has a meaning of its own. -/
def startsSpecially : List Char → Bool
  | [] => false
  | c :: cs =>
    indicators.contains c ||
      ((c == '?' || c == ':' || c == '-') && cs.head?.all isBlankOrBreak) ||
      ['-', '-', '-'].isPrefixOf (c :: cs) || ['.', '.', '.'].isPrefixOf (c :: cs)

/-- Whether a colon behind the first character ends a key, or a number sign begins a remark. -/
def hasSeparator : List Char → Bool
  | a :: b :: cs =>
    (b == ':' && cs.head?.all isBlankOrBreak) || (b == '#' && isBlankOrBreak a) ||
      hasSeparator (b :: cs)
  | _ => false

/-- Whether a text can stand without quotes. -/
def allowsPlain (cs : List Char) : Bool :=
  cs.head? != some ' ' && cs.getLast? != some ' ' &&
    cs.all (fun c => isPrintable c && !isBreak c) && !startsSpecially cs && !hasSeparator cs

/-- Whether a text can stand between single quotes. -/
def allowsSingle (cs : List Char) : Bool :=
  cs.all isPrintable &&
    !anyNeighbours (fun a b => (isBreak a && b == ' ') || (a == ' ' && isBreak b)) cs

/-- Whether a text can be written as a literal block. -/
def allowsLiteral (cs : List Char) : Bool :=
  cs.all isPrintable && cs.getLast? != some ' ' &&
    !anyNeighbours (fun a b => a == ' ' && isBreak b) cs

/-- The style a string is written in. -/
def styleOf (s : String) : Style :=
  let cs := s.toList
  if cs.contains '\n' then if allowsLiteral cs then .literal else .double
  else if !looksTyped s && allowsPlain cs then .plain
  else if allowsSingle cs then .single
  else .double

/-! ### Writing -/

/-- As many blanks. -/
def blanks (n : Nat) : List Char := List.replicate n ' '

/-- The inside of single quotes: a quote is written twice, and behind a line end the indentation
comes in front of the next character that is neither a blank nor a line end, or of the closing
quote. -/
def singleBody (indent : Nat) (behindBreak : Bool) : List Char → List Char
  | [] => if behindBreak then blanks indent else []
  | c :: cs =>
    if isBreak c then c :: singleBody indent true cs
    else if c == ' ' then c :: singleBody indent behindBreak cs
    else
      (if behindBreak then blanks indent else []) ++
        (if c == '\'' then ['\'', '\''] else [c]) ++ singleBody indent false cs

/-- A number in hexadecimal with upper-case letters, filled up with zeros. -/
def hex (width n : Nat) : List Char :=
  let digits := (Nat.toDigits 16 n).map Char.toUpper
  List.replicate (width - digits.length) '0' ++ digits

/-- The letter of the characters that have an escape of their own between double quotes. -/
def escapeLetter? (c : Char) : Option Char :=
  [('\x00', '0'), ('\x07', 'a'), ('\x08', 'b'), ('\t', 't'), ('\n', 'n'), ('\x0b', 'v'),
    ('\x0c', 'f'), ('\r', 'r'), ('\x1b', 'e'), ('"', '"'), ('\\', '\\'), ('\u0085', 'N'),
    ('\u2028', 'L'), ('\u2029', 'P')].lookup c

/-- How a character is written between double quotes. -/
def doubleChar (c : Char) : List Char :=
  if isPrintable c && !isBreak c && c != '"' && c != '\\' then [c]
  else
    match escapeLetter? c with
    | some letter => ['\\', letter]
    | none =>
      let n := c.toNat
      if n ≤ 0xff then ['\\', 'x'] ++ hex 2 n
      else if n ≤ 0xffff then ['\\', 'u'] ++ hex 4 n
      else ['\\', 'U'] ++ hex 8 n

/-- What is said of a literal block in front of it: that its indentation cannot be seen from
its first line, and what becomes of the line ends behind its last. -/
def literalHints (cs : List Char) : List Char :=
  let indentation :=
    match cs with
    | c :: _ => if c == ' ' || isBreak c then ['2'] else []
    | [] => []
  let ending :=
    match cs.reverse with
    | last :: before =>
      if !isBreak last then ['-'] else if before.head?.all isBreak then ['+'] else []
    | [] => ['-']
  indentation ++ ending

/-- The lines of a literal block: the indentation comes in front of every line that is not
empty. -/
def literalBody (indent : Nat) (behindBreak : Bool) : List Char → List Char
  | [] => if behindBreak then [] else ['\n']
  | c :: cs =>
    if isBreak c then c :: literalBody indent true cs
    else (if behindBreak then blanks indent else []) ++ c :: literalBody indent false cs

/-- A string in its style, and the end of its line. Lines behind the first are indented. -/
def scalar (indent : Nat) (s : String) : String :=
  let cs := s.toList
  String.ofList <|
    match styleOf s with
    | .plain => cs ++ ['\n']
    | .single => ['\''] ++ singleBody indent false cs ++ ['\'', '\n']
    | .double => ['"'] ++ cs.flatMap doubleChar ++ ['"', '\n']
    | .literal => ['|'] ++ literalHints cs ++ ['\n'] ++ literalBody indent true cs

end TagTemplate.Yaml
