import TagTemplate.Binary64

/-!
# Decimal notation of doubles

Reading takes a decimal to the nearest double. Writing selects, among the decimals that read
back to a given double, one with the fewest digits, and of these the nearest: the grids of one,
two, up to seventeen digits are tried in turn, and on each grid the two neighbours of the exact
value. The test is the reader itself, so what is selected reads back by construction; should
no grid have a hit the exact decimal value is used, which reads back as well.

The layout of the digits is a matter of the notation in use and is described by a `NumberStyle`
record: where positional writing ends, how an exponent is written, where an exact tie between
two candidates goes, and how the values that are no finite numbers are spelled.

## Main definitions

* `Decimal.toBinary64`: reading.
* `Decimal.shortest`: the selection of digits.
* `NumberStyle.render`: the text of a double in a given style.
-/

namespace TagTemplate

/-- The number `digits * 10 ^ exponent`. -/
structure Decimal where
  /-- The digits as a whole number. -/
  digits : Nat
  /-- The power of ten. -/
  exponent : Int
deriving DecidableEq

/-- Which of two equally near candidates is selected. -/
inductive Tie where
  /-- The one whose last digit is even. -/
  | even
  /-- The one farther from zero. -/
  | up
deriving DecidableEq

namespace Decimal

/-- The double nearest to a decimal with a sign in front. -/
def toBinary64 (negative : Bool) (d : Decimal) : Binary64 :=
  Binary64.ofRatio negative (d.digits * tenTo d.exponent.toNat) (tenTo (-d.exponent).toNat)

/-! ### Selection of digits -/

/-- The ratio of a finite double, without its sign, to `10 ^ exponent`. -/
def scaled (x : Binary64) (exponent : Int) : Nat × Nat :=
  (x.grains * tenTo (-exponent).toNat, Binary64.grainsPerUnit * tenTo exponent.toNat)

/-- How many zeros follow the point of a number of grains below one, looking at no more than
`limit` places. -/
def zerosBehindPoint : (limit grains : Nat) → Nat
  | 0, _ => 0
  | limit + 1, grains =>
    if Binary64.grainsPerUnit ≤ 10 * grains then 0 else zerosBehindPoint limit (10 * grains) + 1

/-- The position of the decimal point counted from the leading digit: `10 ^ (k - 1) ≤ |x|` and
`|x| < 10 ^ k` for the result `k`. No double but zero is below `10 ^ (-324)`. -/
def magnitudeOf (x : Binary64) : Int :=
  let whole := x.grains / Binary64.grainsPerUnit
  if whole = 0 then -(zerosBehindPoint 324 x.grains : Int)
  else (Nat.toDigits 10 whole).length

/-- The decimal with `count` digits, one of the two neighbours of `x` on that grid, that reads
back to `x`; the nearer one if both do. -/
def onGrid? (tie : Tie) (x : Binary64) (count : Nat) : Option Decimal :=
  let exponent := magnitudeOf x - count
  let (num, den) := scaled x exponent
  let below := num / den
  let twice := 2 * (num % den)
  let upFirst :=
    decide (den < twice) || (twice == den && (tie == .up || below % 2 == 1))
  let candidates :=
    if upFirst then [below + 1, below] else [below, below + 1]
  (candidates.map fun digits => { digits, exponent : Decimal }).find? fun d =>
    d.toBinary64 x.negative == x

/-- The exact decimal value of a finite double, without its sign. -/
def exact (x : Binary64) : Decimal :=
  { digits := x.grains * Nat.pow 5 1074, exponent := -1074 }

/-- The decimal with the fewest digits that reads back to the finite double `x`, the nearest
of these. -/
def shortest (tie : Tie) (x : Binary64) : Decimal :=
  ((List.range' 1 17).findSome? (onGrid? tie x)).getD (exact x)

/-! ### Significant digits -/

/-- The digits of a decimal without trailing zeros. -/
def significant (d : Decimal) : List Char :=
  ((Nat.toDigits 10 d.digits).reverse.dropWhile (· == '0')).reverse

/-- Where the decimal point stands, counted from the leading digit. -/
def point (d : Decimal) : Int :=
  ((Nat.toDigits 10 d.digits).length : Int) + d.exponent

end Decimal

/-! ### Layout -/

/-- The decisions of a notation for doubles. -/
structure NumberStyle where
  /-- Where an exact tie between two shortest candidates goes. -/
  tie : Tie
  /-- Whether a number is written positionally, by the position of its decimal point. -/
  positional : Int → Bool
  /-- What follows the digits of a whole number written positionally. -/
  wholeSuffix : String
  /-- What stands before an exponent that is not negative. -/
  exponentPlus : String
  /-- The text of NaN. -/
  nan : String
  /-- The text of infinity, without its sign. -/
  infinity : String

namespace NumberStyle

/-- Digits with their point in place, filled up with zeros on either side. -/
def placeDigits (style : NumberStyle) (digits : List Char) (point : Int) : String :=
  let zeros (n : Int) := List.replicate n.toNat '0'
  if point ≤ 0 then
    String.ofList (['0', '.'] ++ zeros (-point) ++ digits)
  else if digits.length ≤ point.toNat then
    String.ofList (digits ++ zeros (point - digits.length)) ++ style.wholeSuffix
  else
    String.ofList (digits.take point.toNat ++ ['.'] ++ digits.drop point.toNat)

/-- Digits with the point behind the first of them, and the power of ten. -/
def scientific (style : NumberStyle) (digits : List Char) (point : Int) : String :=
  let mantissa :=
    match digits with
    | d :: e :: rest => d :: '.' :: e :: rest
    | short => short
  let power := point - 1
  let sign := if 0 ≤ power then style.exponentPlus else "-"
  String.ofList mantissa ++ "e" ++ sign ++ Nat.repr power.natAbs

/-- The text of the magnitude of a finite double. -/
def magnitudeText (style : NumberStyle) (x : Binary64) : String :=
  if x.grains = 0 then "0" ++ style.wholeSuffix
  else
    let d := Decimal.shortest style.tie x
    if style.positional d.point then style.placeDigits d.significant d.point
    else style.scientific d.significant d.point

/-- The text of a double. -/
def render (style : NumberStyle) (x : Binary64) : String :=
  if x.isNaN then style.nan
  else
    let sign := if x.negative then "-" else ""
    sign ++ if x.isFinite then style.magnitudeText x else style.infinity

end NumberStyle

end TagTemplate
