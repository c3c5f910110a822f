import TagTemplate.Proofs.LongestMatch
import TagTemplate.Proofs.Nearest

/-!
# Which numbers a template has

A number lexeme is digits and points behind a sign or none, in any order (`IsLexeme`). Some of them
are numbers: digits alone stand for a whole number (`SpellsWhole`), and digits on both sides of one
point for a size with a sign (`SpellsPoint`). The reader takes the first if 32 bits hold it and the
second if it rounds to a finite double. Nothing else is a number, and no number is changed to fit.

What the reader takes has one of two forms (`exists_parts_of_read?`), and what it makes of each is
said by value: of digits the number they stand for (`integer?_eq_some_iff`), of digits around a
point the double that is nearest (`double?_eq_some_iff`). That a number is written as a lexeme of
the same number is what was known of literals before.

## Main results

* `read?_eq_some_integer_iff`, `read?_eq_some_double_iff`: which lexemes are numbers, and which.
* `read?_eq_none_iff`: the others are malformed.
* `classified`: all that scanning a lexeme can come to.
-/

namespace TagTemplate.Numeral

/-! ### Lexemes -/

/-- **A number lexeme**: a sign or none, a digit or a point, and digits and points. -/
def IsLexeme (l : List Char) : Prop :=
  l ∈ TagPattern.digits.language ∨ l ∈ TagPattern.point.language

/-- Lexemes are runs of digits and points behind a sign or none. -/
theorem isLexeme_iff {l : List Char} :
    IsLexeme l ↔
      ∃ negative c cs, l = sign negative ++ c :: cs ∧ ∀ d ∈ c :: cs, isPart d = true := by
  constructor
  · rintro (h | h)
    · exact TagPattern.exists_parts_of_mem (Or.inl rfl) h
    · exact TagPattern.exists_parts_of_mem (Or.inr rfl) h
  · rintro ⟨negative, c, cs, rfl, hall⟩
    exact TagPattern.mem_of_parts negative hall

/-- What is read is a lexeme. -/
theorem isLexeme_of_read? {l : List Char} {v : Numeral} (h : read? l = some v) : IsLexeme l := by
  obtain ⟨negative, c, cs, hl, -, hall⟩ := exists_sign_of_read? h
  exact isLexeme_iff.mpr ⟨negative, c, cs, hl, hall⟩

/-- **Scanning a lexeme** in front of what cannot go on in it: what is read of it, or a fault. -/
theorem IsLexeme.scanTag_append {l rest : List Char} (h : IsLexeme l)
    (hrest : ∀ d ∈ rest.head?, isPart d = false) :
    scanTag (l ++ rest) =
      (read? l).elim (.error .malformedNumber) fun v => .ok ⟨v.token, l, rest⟩ := by
  obtain ⟨negative, c, cs, rfl, hall⟩ := isLexeme_iff.mp h
  exact scanTag_number_append negative hall hrest

/-- Scanning a lexeme on its own. -/
theorem IsLexeme.scanTag_eq {l : List Char} (h : IsLexeme l) :
    scanTag l = (read? l).elim (.error .malformedNumber) fun v => .ok ⟨v.token, l, []⟩ := by
  have hends : ∀ d ∈ ([] : List Char).head?, isPart d = false := by simp
  have hscan := h.scanTag_append hends
  rwa [List.append_nil] at hscan

/-! ### What numbers stand for -/

/-- **Digits** with a sign or none, and the whole number they stand for. -/
def SpellsWhole (l : List Char) (n : ℤ) : Prop :=
  ∃ negative digits, IsDigits digits ∧ l = sign negative ++ digits ∧
    n = if negative then -(Nat.ofDigitChars 10 digits 0 : ℤ) else Nat.ofDigitChars 10 digits 0

/-- **Digits on both sides of a point** with a sign or none, and the size they stand for. -/
def SpellsPoint (l : List Char) (negative : Bool) (size : ℚ) : Prop :=
  ∃ whole fraction, IsDigits whole ∧ IsDigits fraction ∧
    l = sign negative ++ (whole ++ '.' :: fraction) ∧
    size = Nat.ofDigitChars 10 whole 0 +
      (Nat.ofDigitChars 10 fraction 0 : ℚ) / 10 ^ fraction.length

/-- **Numbers**: whole numbers of 32 bits, and sizes that round to a finite double. -/
def IsNumber (l : List Char) : Prop :=
  (∃ n, SpellsWhole l n ∧ -2 ^ 31 ≤ n ∧ n < 2 ^ 31) ∨
    ∃ negative size x, SpellsPoint l negative size ∧ Binary64.Rounds negative size x

/-- Digits around a point are worth what stands in front of it and, by its places, what stands
behind it. -/
theorem value_ofParts (whole fraction : List Char) :
    (Decimal.ofParts whole fraction).value = Nat.ofDigitChars 10 whole 0 +
      (Nat.ofDigitChars 10 fraction 0 : ℚ) / 10 ^ fraction.length := by
  have hpow : (10 : ℚ) ^ fraction.length ≠ 0 := by positivity
  rw [Decimal.value, Decimal.ofParts, ofDigitChars_append_eq, zpow_neg, zpow_natCast]
  push_cast
  rw [add_mul, mul_assoc, mul_inv_cancel₀ hpow, mul_one, div_eq_mul_inv]

/-- A whole number of 32 bits is read as itself, and no other is read. -/
theorem integer?_eq_some_iff {negative : Bool} {digits : List Char} {v : Numeral} :
    integer? negative digits = some v ↔ ∃ w : Int32, v = .integer w ∧
      w.toInt =
        if negative then -(Nat.ofDigitChars 10 digits 0 : ℤ) else Nat.ofDigitChars 10 digits 0 := by
  simp only [integer?, twoTo_eq, Nat.cast_pow, Nat.cast_ofNat, Option.ite_none_right_eq_some,
    Option.some.injEq]
  constructor
  · rintro ⟨⟨hlow, hhigh⟩, rfl⟩
    exact ⟨_, rfl, Int32.toInt_ofInt_of_le hlow hhigh⟩
  · rintro ⟨w, rfl, hw⟩
    rw [← hw, Int32.ofInt_toInt]
    exact ⟨⟨w.le_toInt, w.toInt_lt⟩, rfl⟩

/-- Digits around a point are read as the double that is nearest, if that is finite. -/
theorem double?_eq_some_iff {negative : Bool} {whole fraction : List Char} {v : Numeral} :
    double? negative whole fraction = some v ↔ ∃ x, v = .double x ∧
      Binary64.Rounds negative (Decimal.ofParts whole fraction).value x := by
  simp only [double?, Option.ite_none_right_eq_some, Option.some.injEq,
    ← Decimal.toBinary64_eq_iff]
  constructor
  · rintro ⟨hfinite, rfl⟩
    exact ⟨_, rfl, rfl, hfinite⟩
  · rintro ⟨x, rfl, rfl, hfinite⟩
    exact ⟨hfinite, rfl⟩

/-! ### What is read -/

/-- **Which lexemes are whole numbers**, and which numbers they are. -/
theorem read?_eq_some_integer_iff {l : List Char} {w : Int32} :
    read? l = some (.integer w) ↔ SpellsWhole l w.toInt := by
  constructor
  · intro h
    obtain ⟨negative, ⟨digits, hdigits, rfl, hread⟩ | ⟨whole, fraction, -, -, -, hread⟩⟩ :=
      exists_parts_of_read? h
    · obtain ⟨w', hw', hvalue⟩ := integer?_eq_some_iff.mp hread
      cases hw'
      exact ⟨negative, digits, hdigits, rfl, hvalue⟩
    · obtain ⟨x, hx, -⟩ := double?_eq_some_iff.mp hread
      cases hx
  · rintro ⟨negative, digits, hdigits, rfl, hvalue⟩
    rw [read?_digits negative hdigits]
    exact integer?_eq_some_iff.mpr ⟨w, rfl, hvalue⟩

/-- **Which lexemes are doubles**, and which doubles they are. -/
theorem read?_eq_some_double_iff {l : List Char} {x : Binary64} :
    read? l = some (.double x) ↔
      ∃ negative size, SpellsPoint l negative size ∧ Binary64.Rounds negative size x := by
  constructor
  · intro h
    obtain ⟨negative, ⟨digits, -, -, hread⟩ | ⟨whole, fraction, hw, hf, rfl, hread⟩⟩ :=
      exists_parts_of_read? h
    · obtain ⟨w, hw, -⟩ := integer?_eq_some_iff.mp hread
      cases hw
    · obtain ⟨x', hx', hrounds⟩ := double?_eq_some_iff.mp hread
      cases hx'
      exact ⟨negative, _, ⟨whole, fraction, hw, hf, rfl, value_ofParts whole fraction⟩, hrounds⟩
  · rintro ⟨negative, size, ⟨whole, fraction, hw, hf, rfl, rfl⟩, hrounds⟩
    rw [read?_point negative hw hf]
    exact double?_eq_some_iff.mpr ⟨x, rfl, by rwa [value_ofParts]⟩

/-- **Everything else is malformed.** -/
theorem read?_eq_none_iff {l : List Char} : read? l = none ↔ ¬ IsNumber l := by
  rw [← Option.not_isSome_iff_eq_none, Option.isSome_iff_exists, not_iff_not]
  constructor
  · rintro ⟨w | x, hv⟩
    · exact Or.inl ⟨w.toInt, read?_eq_some_integer_iff.mp hv, w.le_toInt, w.toInt_lt⟩
    · obtain ⟨negative, size, hspells, hrounds⟩ := read?_eq_some_double_iff.mp hv
      exact Or.inr ⟨negative, size, x, hspells, hrounds⟩
  · rintro (⟨n, hspells, hlow, hhigh⟩ | ⟨negative, size, x, hspells, hrounds⟩)
    · refine ⟨.integer (Int32.ofInt n), read?_eq_some_integer_iff.mpr ?_⟩
      rwa [Int32.toInt_ofInt_of_le hlow hhigh]
    · exact ⟨.double x, read?_eq_some_double_iff.mpr ⟨negative, size, hspells, hrounds⟩⟩

/-- There is no point among digits. -/
theorem count_point_digits {digits : List Char} (h : IsDigits digits) : digits.count '.' = 0 :=
  List.count_eq_zero.mpr fun hmem => absurd (h.2 '.' hmem) (by decide)

/-- A sign is no point. -/
theorem count_point_sign (negative : Bool) : (sign negative).count '.' = 0 := by
  cases negative <;> decide

/-- Whole numbers are spelled without a point. -/
theorem SpellsWhole.count_point {l : List Char} {n : ℤ} (h : SpellsWhole l n) :
    l.count '.' = 0 := by
  obtain ⟨negative, digits, hdigits, rfl, -⟩ := h
  rw [List.count_append, count_point_sign, count_point_digits hdigits]

/-- Sizes are spelled with one point. -/
theorem SpellsPoint.count_point {l : List Char} {negative : Bool} {size : ℚ}
    (h : SpellsPoint l negative size) : l.count '.' = 1 := by
  obtain ⟨whole, fraction, hwhole, hfraction, rfl, -⟩ := h
  rw [List.count_append, List.count_append, List.count_cons_self, count_point_sign,
    count_point_digits hwhole, count_point_digits hfraction]

/-- Numbers have one point at most. -/
theorem IsNumber.count_point_le {l : List Char} (h : IsNumber l) : l.count '.' ≤ 1 := by
  rcases h with ⟨n, hspells, -⟩ | ⟨negative, size, x, hspells, -⟩
  · exact hspells.count_point.le.trans zero_le_one
  · exact hspells.count_point.le

/-- A lexeme without a point is digits, with a sign or none. -/
theorem IsLexeme.notMem_point_iff {l : List Char} (h : IsLexeme l) :
    '.' ∉ l ↔ ∃ n, SpellsWhole l n := by
  constructor
  · intro hnot
    obtain ⟨negative, c, cs, rfl, hall⟩ := isLexeme_iff.mp h
    refine ⟨_, negative, c :: cs, ⟨by simp, fun d hd => ?_⟩, rfl, rfl⟩
    have hd' := hall d hd
    simp only [isPart, Bool.or_eq_true, beq_iff_eq] at hd'
    refine hd'.resolve_right ?_
    rintro rfl
    exact hnot (List.mem_append_right _ hd)
  · rintro ⟨n, hspells⟩
    exact List.count_eq_zero.mp hspells.count_point

/-- Every number that is read is an element, and the text of that is read as the number again. -/
theorem exists_element_of_read? {l : List Char} {v : Numeral} (h : read? l = some v) :
    ∃ e : Element, e.token = v.token ∧ read? e.text.toList = some v := by
  cases v with
  | integer w => exact ⟨.integer w, rfl, read?_integer w⟩
  | double x => exact ⟨.double x, rfl, read?_double (sound_of_read? h).2⟩

/-! ### All that a lexeme can be -/

/-- **What scanning a number lexeme can come to.** -/
structure Classified (l : List Char) : Prop where
  /-- It is an integer, a double, or malformed. -/
  cases : (∃ w, scanTag l = .ok ⟨.integer w, l, []⟩) ∨
    (∃ x, scanTag l = .ok ⟨.double x, l, []⟩) ∨ scanTag l = .error .malformedNumber
  /-- Integers are the lexemes without a point whose number is in range, and they are that
  number. -/
  integer : ∀ n : ℤ, (∃ w : Int32, scanTag l = .ok ⟨.integer w, l, []⟩ ∧ w.toInt = n) ↔
    '.' ∉ l ∧ SpellsWhole l n ∧ -2 ^ 31 ≤ n ∧ n < 2 ^ 31
  /-- Doubles are the lexemes with digits on both sides of one point, if they round to a finite
  double, and they are that double. -/
  double : ∀ x, scanTag l = .ok ⟨.double x, l, []⟩ ↔
    ∃ negative size, SpellsPoint l negative size ∧ Binary64.Rounds negative size x
  /-- All others are malformed. -/
  malformed : scanTag l = .error .malformedNumber ↔ ¬ IsNumber l
  /-- What was read is written as a lexeme again, and is the same when that is scanned. -/
  reread : ∀ token, scanTag l = .ok ⟨token, l, []⟩ →
    ∃ e : Element, e.token = token ∧ IsLexeme e.text.toList ∧
      scanTag e.text.toList = .ok ⟨token, e.text.toList, []⟩

/-- **Number lexemes are classified by what they stand for.** -/
theorem classified {l : List Char} (h : IsLexeme l) : Classified l := by
  have hscan := h.scanTag_eq
  have hinteger (w : Int32) :
      scanTag l = .ok ⟨.integer w, l, []⟩ ↔ read? l = some (.integer w) := by
    rw [hscan]
    rcases read? l with _ | w' | x <;> simp [Numeral.token]
  have hdouble (x : Binary64) :
      scanTag l = .ok ⟨.double x, l, []⟩ ↔ read? l = some (.double x) := by
    rw [hscan]
    rcases read? l with _ | w | x' <;> simp [Numeral.token]
  have hmalformed : scanTag l = .error .malformedNumber ↔ read? l = none := by
    rw [hscan]
    rcases read? l with _ | v <;> simp
  constructor
  case cases =>
    simp only [hinteger, hdouble, hmalformed]
    rcases read? l with _ | w | x <;> simp
  case integer =>
    intro n
    simp only [hinteger, read?_eq_some_integer_iff]
    constructor
    · rintro ⟨w, hspells, rfl⟩
      exact ⟨h.notMem_point_iff.mpr ⟨_, hspells⟩, hspells, w.le_toInt, w.toInt_lt⟩
    · rintro ⟨-, hspells, hlow, hhigh⟩
      have hn := Int32.toInt_ofInt_of_le hlow hhigh
      exact ⟨Int32.ofInt n, by rwa [hn], hn⟩
  case double =>
    intro x
    rw [hdouble, read?_eq_some_double_iff]
  case malformed => rw [hmalformed, read?_eq_none_iff]
  case reread =>
    intro token htoken
    obtain ⟨v, hv, rfl⟩ : ∃ v, read? l = some v ∧ v.token = token := by
      rw [hscan] at htoken
      cases hread : read? l with
      | none => simp [hread] at htoken
      | some v =>
          simp only [hread, Option.elim_some, Except.ok.injEq, Found.mk.injEq] at htoken
          exact ⟨v, rfl, htoken.1⟩
    obtain ⟨e, he, hread⟩ := exists_element_of_read? hv
    have hlexeme := isLexeme_of_read? hread
    refine ⟨e, he, hlexeme, ?_⟩
    rw [hlexeme.scanTag_eq, hread]
    rfl

/-- A number halfway between two doubles goes to the even one, here the lower. The least whole
number of 32 bits is read as itself, and a lexeme with two points is no number. -/
theorem classified_halfway :
    scanTag "9007199254740993.0".toList =
        .ok ⟨.double (Binary64.ofBits 0x4340000000000000), "9007199254740993.0".toList, []⟩ ∧
      (∃ w : Int32, scanTag "-2147483648".toList = .ok ⟨.integer w, "-2147483648".toList, []⟩ ∧
        w.toInt = -2 ^ 31) ∧
      scanTag "1..2".toList = .error .malformedNumber := by
  have hhalf : IsLexeme "9007199254740993.0".toList :=
    isLexeme_iff.mpr ⟨false, '9', "007199254740993.0".toList, rfl, by simp [isPart]⟩
  have hleast : IsLexeme "-2147483648".toList :=
    isLexeme_iff.mpr ⟨true, '2', "147483648".toList, rfl, by simp [isPart]⟩
  have hpoints : IsLexeme "1..2".toList :=
    isLexeme_iff.mpr ⟨false, '1', "..2".toList, rfl, by simp [isPart]⟩
  have hwhole : IsDigits "9007199254740993".toList := ⟨by simp, by simp⟩
  have hpoint : SpellsPoint "9007199254740993.0".toList false
      (Decimal.ofParts "9007199254740993".toList ['0']).value :=
    ⟨_, ['0'], hwhole, ⟨by simp, by simp⟩, rfl, value_ofParts _ _⟩
  have hrounds : Binary64.Rounds false (Decimal.ofParts "9007199254740993".toList ['0']).value
      (Binary64.ofBits 0x4340000000000000) :=
    Decimal.toBinary64_eq_iff.mp (by decide +kernel)
  have hinteger : SpellsWhole "-2147483648".toList (-2 ^ 31) :=
    ⟨true, "2147483648".toList, ⟨by simp, by simp⟩, rfl, by decide +kernel⟩
  refine ⟨((classified hhalf).double _).mpr ⟨false, _, hpoint, hrounds⟩,
    ((classified hleast).integer _).mpr ⟨by decide, hinteger, by decide, by decide⟩,
    (classified hpoints).malformed.mpr fun hnumber => ?_⟩
  exact absurd hnumber.count_point_le (by decide)

end TagTemplate.Numeral
