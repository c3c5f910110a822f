import TagTemplate.Decimal

/-!
# Number literals

A number lexeme is an optional minus sign and the longest run of digits and points behind it.
The lexeme is loose on purpose: a run such as `1..2` is one malformed number and not two
numbers with something between them. Without a point the lexeme is a whole number of 32 bits;
with exactly one point and digits on both sides it is a double, correctly rounded and finite;
anything else is malformed.
-/

namespace TagTemplate

/-- The value of a number literal. -/
inductive Numeral where
  | integer (value : Int32)
  | double (value : Binary64)
deriving DecidableEq

namespace Numeral

/-- The characters of a number lexeme behind its sign. -/
def isPart (c : Char) : Bool := c.isDigit || c == '.'

/-- Takes a minus sign off. -/
def splitSign : List Char → Bool × List Char
  | '-' :: cs => (true, cs)
  | cs => (false, cs)

/-- The number lexeme at the head of the input, with what follows it. -/
def scan? (cs : List Char) : Option (List Char × List Char) :=
  let (negative, body) := splitSign cs
  let run := body.takeWhile isPart
  if run.isEmpty then none
  else some (if negative then '-' :: run else run, body.dropWhile isPart)

/-- A whole number, if it fits into 32 bits. -/
def integer? (negative : Bool) (digits : List Char) : Option Numeral :=
  let size : Int := Nat.ofDigitChars 10 digits 0
  let value := if negative then -size else size
  if -(twoTo 31 : Int) ≤ value ∧ value < twoTo 31 then some (integer (Int32.ofInt value)) else none

/-- The double nearest to a number with a point, if that is finite. -/
def double? (negative : Bool) (whole fraction : List Char) : Option Numeral :=
  let value := Decimal.toBinary64 negative
    { digits := Nat.ofDigitChars 10 (whole ++ fraction) 0, exponent := -fraction.length }
  if value.isFinite then some (double value) else none

/-- The value of a number lexeme, if it is well formed and in range. -/
def read? (lexeme : List Char) : Option Numeral :=
  let (negative, body) := splitSign lexeme
  let whole := body.takeWhile Char.isDigit
  if whole.isEmpty then none
  else
    match body.dropWhile Char.isDigit with
    | [] => integer? negative whole
    | '.' :: fraction =>
      if !fraction.isEmpty && fraction.all Char.isDigit then double? negative whole fraction
      else none
    | _ => none

/-- Putting the sign back gives the characters it was taken from. -/
theorem eq_of_splitSign {cs body : List Char} {negative : Bool}
    (h : splitSign cs = (negative, body)) :
    (if negative then '-' :: body else body) = cs := by
  unfold splitSign at h
  split at h <;> cases h <;> rfl

/-- A number lexeme is not empty, and with what follows it makes up the input. -/
theorem eq_append_of_scan? {cs lexeme rest : List Char} (h : scan? cs = some (lexeme, rest)) :
    lexeme ≠ [] ∧ lexeme ++ rest = cs := by
  rcases hs : splitSign cs with ⟨negative, body⟩
  simp only [scan?, hs] at h
  split at h
  · cases h
  · rename_i hrun
    simp only [Option.some.injEq, Prod.mk.injEq] at h
    obtain ⟨rfl, rfl⟩ := h
    rw [← eq_of_splitSign hs]
    cases negative <;> simp_all

end Numeral

end TagTemplate
