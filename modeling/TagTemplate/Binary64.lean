/-!
# Doubles by their fields

A double is held as its sign and its *magnitude field*: exponent and fraction read as one
63-bit number. All arithmetic on doubles that templates need is exact arithmetic on natural
numbers, so that every statement about it can be proved and every closed case decided.

## The grain convention

Every finite double is a whole number of **grains**, one grain being the least positive
double `2 ^ (-1074)`. `grainsOf` sends a magnitude field to its grains and is strictly
increasing, so fields are ordered as the values they stand for. In the other direction
`fieldOfRatio` rounds a ratio of grains to the nearest field, a half going to the even
neighbour. With `s` the number of binary places that do not fit into 53, the rounded
significand is simply added to `s * 2 ^ 52`: a significand that rounds up to `2 ^ 53` carries
into the exponent by itself, and the least binades need no case of their own.

## Main definitions

* `Binary64.ofRatio`: the double nearest to a ratio, ties to even, infinity beyond the range.
* `Binary64.absDiff`: the computed distance of two doubles.
* `Binary64.sameValue`, `Binary64.less`: numerical comparison; a NaN compares with nothing and
  the two zeros are the same value.
-/

namespace TagTemplate

/-- A power of two. -/
def twoTo (n : Nat) : Nat := Nat.pow 2 n

/-- A power of ten. -/
def tenTo (n : Nat) : Nat := Nat.pow 10 n

/-- A double-precision number: the sign, and exponent and fraction as one number. -/
structure Binary64 where
  /-- The sign bit. -/
  negative : Bool
  /-- The eleven exponent bits followed by the fifty-two fraction bits. -/
  magnitude : BitVec 63
deriving DecidableEq

namespace Binary64

/-- The double with the given 64 bits, most significant first. -/
def ofBits (bits : UInt64) : Binary64 :=
  { negative := decide (twoTo 63 ≤ bits.toNat), magnitude := BitVec.ofNat 63 bits.toNat }

/-- The 64 bits of a double. -/
def toBits (x : Binary64) : UInt64 :=
  UInt64.ofNat ((if x.negative then twoTo 63 else 0) + x.magnitude.toNat)

/-- The magnitude field of the infinities: all exponent bits set, no fraction. Smaller fields
are finite, larger ones are no number. -/
def infinityField : Nat := 2047 * twoTo 52

/-- The field of a quiet NaN. -/
def nanField : Nat := infinityField + twoTo 51

/-- The magnitude field as a natural number. -/
def field (x : Binary64) : Nat := x.magnitude.toNat

/-- Neither infinite nor NaN. -/
def isFinite (x : Binary64) : Bool := decide (x.field < infinityField)

/-- No number at all. -/
def isNaN (x : Binary64) : Bool := decide (infinityField < x.field)

/-- The double of a sign and a magnitude field, fields past infinity being cut to it. -/
def ofField (negative : Bool) (field : Nat) : Binary64 :=
  { negative, magnitude := BitVec.ofNat 63 (min field infinityField) }

/-! ### Grains -/

/-- The grains of a magnitude field: without exponent bits the fraction itself, otherwise the
fraction with its implicit leading bit, shifted. -/
def grainsOf (field : Nat) : Nat :=
  let exponent := field / twoTo 52
  let fraction := field % twoTo 52
  if exponent = 0 then fraction else (twoTo 52 + fraction) * twoTo (exponent - 1)

/-- The grains of a finite double, without its sign. -/
def grains (x : Binary64) : Nat := grainsOf x.field

/-- The grains of a finite double, with its sign. -/
def signedGrains (x : Binary64) : Int :=
  if x.negative then -(x.grains : Int) else x.grains

/-- How many grains make one. -/
def grainsPerUnit : Nat := twoTo 1074

/-! ### Rounding -/

/-- The whole number nearest to `num / den`, a half going to the even neighbour. -/
def roundHalfEven (num den : Nat) : Nat :=
  let quotient := num / den
  let twice := 2 * (num % den)
  if twice < den then quotient
  else if den < twice then quotient + 1
  else quotient + quotient % 2

/-- The magnitude field nearest to `num / den` grains, a half going to the even field. Ratios
beyond the range give fields at or past `infinityField`. -/
def fieldOfRatio (num den : Nat) : Nat :=
  let places := Nat.log2 (num / den) - 52
  places * twoTo 52 + roundHalfEven num (den * twoTo places)

/-- The double nearest to `num / den`, a half going to the even significand; a ratio that
rounds past the largest finite double gives infinity. -/
def ofRatio (negative : Bool) (num den : Nat) : Binary64 :=
  ofField negative (fieldOfRatio (num * grainsPerUnit) den)

/-! ### Comparison -/

/-- Orders the doubles that are numbers as their values; both zeros have the same key. -/
def key (x : Binary64) : Int :=
  if x.negative then -(x.field : Int) else x.field

/-- The same number. A NaN is not the same as anything, itself included. -/
def sameValue (x y : Binary64) : Bool :=
  !x.isNaN && !y.isNaN && x.key == y.key

/-- The smaller number. -/
def less (x y : Binary64) : Bool :=
  !x.isNaN && !y.isNaN && decide (x.key < y.key)

/-- The distance of two doubles as arithmetic on doubles computes it: the exact distance of
finite doubles, rounded; NaN where the difference is not defined; infinity otherwise. -/
def absDiff (x y : Binary64) : Binary64 :=
  if x.isFinite && y.isFinite then
    ofField false (fieldOfRatio (x.signedGrains - y.signedGrains).natAbs 1)
  else if x.isNaN || y.isNaN || x == y then
    { negative := false, magnitude := BitVec.ofNat 63 nanField }
  else
    ofField false infinityField

end Binary64

end TagTemplate
