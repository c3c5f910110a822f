import TagTemplate.Element
import TagTemplate.Token.Numeral
import TagTemplate.Proofs.Rounding
import Mathlib.Data.List.TakeWhile

/-!
# Number literals read back

The text by which a template writes a number is a number literal of that number: an integer
without a point, a finite double with digits on both sides of one (`read?_integer`,
`read?_double`). The digits of a double go through three layouts, by where the point falls;
all three spell the value `significant digits * 10 ^ (point - their number)`, so that the
reader, which looks at the value only, finds the double again.

A literal that reads at all is a sign, a digit, and digits and points (`exists_sign_of_read?`), and
these the scanner takes whole in front of anything that is neither (`scan?_sign_append`).
-/

namespace TagTemplate

/-- A run of decimal digits that is not empty. -/
def IsDigits (cs : List Char) : Prop := cs ≠ [] ∧ ∀ c ∈ cs, c.isDigit = true

/-- Runs of digits in a row are one. -/
theorem IsDigits.append {as bs : List Char} (ha : IsDigits as) (hb : ∀ c ∈ bs, c.isDigit = true) :
    IsDigits (as ++ bs) := by
  refine ⟨List.append_ne_nil_of_left_ne_nil ha.1 _, ?_⟩
  intro c hc
  rcases List.mem_append.mp hc with h | h
  · exact ha.2 c h
  · exact hb c h

/-- The digits of a number are digits. -/
theorem isDigits_toDigits (n : ℕ) : IsDigits (Nat.toDigits 10 n) :=
  ⟨Nat.toDigits_ne_nil, fun _ => Nat.isDigit_of_mem_toDigits (by decide) (by decide)⟩

/-- Zeros are digits. -/
theorem isDigit_of_mem_zeros {n : ℕ} {c : Char} (h : c ∈ List.replicate n '0') :
    c.isDigit = true := by
  rw [List.eq_of_mem_replicate h]
  rfl

/-! ### The value of digits -/

namespace Decimal

/-- The digits of a decimal are its significant ones and zeros behind them. -/
theorem toDigits_eq_significant (d : Decimal) :
    ∃ zeros, Nat.toDigits 10 d.digits = d.significant ++ List.replicate zeros '0' := by
  have hsplit := List.takeWhile_append_dropWhile
    (p := (· == '0')) (l := (Nat.toDigits 10 d.digits).reverse)
  set zeros := (Nat.toDigits 10 d.digits).reverse.takeWhile (· == '0') with hzeros
  have hall : zeros = List.replicate zeros.length '0' := by
    refine List.eq_replicate_of_mem ?_
    intro c hc
    simpa using List.mem_takeWhile_imp hc
  refine ⟨zeros.length, ?_⟩
  have := congrArg List.reverse hsplit
  rw [List.reverse_append, List.reverse_reverse] at this
  rw [← this, significant, hall]
  simp

/-- The significant digits are digits, and there are some unless all digits are zero. -/
theorem isDigits_significant {d : Decimal} (h : d.digits ≠ 0) : IsDigits d.significant := by
  obtain ⟨zeros, hz⟩ := d.toDigits_eq_significant
  refine ⟨?_, ?_⟩
  · intro hnil
    have hval := Nat.ofDigitChars_ten_toDigits (n := d.digits)
    rw [hz, hnil, List.nil_append, Nat.ofDigitChars_replicate_zero] at hval
    exact h (by simpa using hval.symm)
  · intro c hc
    refine (isDigits_toDigits d.digits).2 c ?_
    rw [hz]
    exact List.mem_append_left _ hc

/-- **The value of a decimal by its significant digits**: where the point stands and how many
digits there are say which power of ten belongs to them. -/
theorem value_eq_significant (d : Decimal) :
    d.value = (Nat.ofDigitChars 10 d.significant 0 : ℕ) *
      (10 : ℚ) ^ (d.point - d.significant.length) := by
  obtain ⟨zeros, hz⟩ := d.toDigits_eq_significant
  have hdigits : d.digits = Nat.ofDigitChars 10 d.significant 0 * 10 ^ zeros := by
    rw [← Nat.ofDigitChars_ten_toDigits (n := d.digits), hz, Nat.ofDigitChars_append,
      Nat.ofDigitChars_replicate_zero, Nat.mul_comm]
  have hpoint : d.point - d.significant.length = zeros + d.exponent := by
    have := congrArg List.length hz
    simp only [List.length_append, List.length_replicate] at this
    simp only [point, this]
    push_cast
    ring
  rw [value, hpoint, zpow_add₀ (by norm_num), zpow_natCast]
  nth_rewrite 1 [hdigits]
  push_cast
  ring

/-- What digits in front of a point and digits behind it are worth. -/
def ofParts (whole fraction : List Char) : Decimal :=
  { digits := Nat.ofDigitChars 10 (whole ++ fraction) 0, exponent := -fraction.length }

end Decimal

/-! ### Layout keeps the value -/

/-- In front of more digits, digits are shifted. -/
theorem ofDigitChars_append_eq (as bs : List Char) :
    Nat.ofDigitChars 10 (as ++ bs) 0 =
      Nat.ofDigitChars 10 as 0 * 10 ^ bs.length + Nat.ofDigitChars 10 bs 0 := by
  rw [Nat.ofDigitChars_append, Nat.ofDigitChars_eq_ofDigitChars_zero, Nat.mul_comm]

/-- A text with a point that is worth a given number: digits, the point, and digits. -/
def IsPointText (text : List Char) (value : ℚ) : Prop :=
  ∃ whole fraction, IsDigits whole ∧ IsDigits fraction ∧ text = whole ++ '.' :: fraction ∧
    (Decimal.ofParts whole fraction).value = value

/-- Digits behind the point, with zeros in front of them. -/
theorem isPointText_zeros_append {digits : List Char} (h : IsDigits digits) (zeros : ℕ) :
    IsPointText ('0' :: '.' :: (List.replicate zeros '0' ++ digits))
      ((Nat.ofDigitChars 10 digits 0 : ℕ) * (10 : ℚ) ^ (-(zeros : ℤ) - digits.length)) := by
  refine ⟨['0'], List.replicate zeros '0' ++ digits, ⟨by simp, by simp⟩, ⟨?_, ?_⟩, rfl, ?_⟩
  · exact List.append_ne_nil_of_right_ne_nil _ h.1
  · intro c hc
    rcases List.mem_append.mp hc with hz | hd
    · exact isDigit_of_mem_zeros hz
    · exact h.2 c hd
  · have hval : Nat.ofDigitChars 10 (['0'] ++ (List.replicate zeros '0' ++ digits)) 0 =
        Nat.ofDigitChars 10 digits 0 := by
      rw [← List.append_assoc, Nat.ofDigitChars_append, Nat.ofDigitChars_append]
      simp [Nat.ofDigitChars_cons, Nat.ofDigitChars_replicate_zero]
    have hexp : (-((List.replicate zeros '0' ++ digits).length : ℤ)) =
        -(zeros : ℤ) - digits.length := by
      simp only [List.length_append, List.length_replicate]
      omega
    simp only [Decimal.value, Decimal.ofParts, hval, hexp]

/-- Digits in front of the point, with zeros behind them, and one behind the point. -/
theorem isPointText_append_zeros {digits : List Char} (h : IsDigits digits) (zeros : ℕ) :
    IsPointText (digits ++ List.replicate zeros '0' ++ ['.', '0'])
      ((Nat.ofDigitChars 10 digits 0 : ℕ) * (10 : ℚ) ^ (zeros : ℤ)) := by
  refine ⟨digits ++ List.replicate zeros '0', ['0'], h.append fun c => isDigit_of_mem_zeros,
    ⟨by simp, by simp⟩, rfl, ?_⟩
  simp only [Decimal.value, Decimal.ofParts, ofDigitChars_append_eq,
    Nat.ofDigitChars_replicate_zero, List.length_replicate]
  simp [Nat.ofDigitChars_cons]

/-- Digits around the point. -/
theorem isPointText_take_drop {digits : List Char} (h : IsDigits digits) {point : ℕ}
    (hpos : 0 < point) (hlt : point < digits.length) :
    IsPointText (digits.take point ++ '.' :: digits.drop point)
      ((Nat.ofDigitChars 10 digits 0 : ℕ) * (10 : ℚ) ^ ((point : ℤ) - digits.length)) := by
  refine ⟨digits.take point, digits.drop point, ⟨?_, ?_⟩, ⟨?_, ?_⟩, rfl, ?_⟩
  · rw [Ne, List.take_eq_nil_iff]
    rintro (hzero | hnil)
    · omega
    · exact h.1 hnil
  · exact fun c hc => h.2 c (List.mem_of_mem_take hc)
  · rw [Ne, List.drop_eq_nil_iff]
    omega
  · exact fun c hc => h.2 c (List.mem_of_mem_drop hc)
  · have hexp : (-((digits.drop point).length : ℤ)) = point - digits.length := by
      rw [List.length_drop]
      omega
    simp only [Decimal.value, Decimal.ofParts, List.take_append_drop, hexp]

/-- **Layout keeps the value**: digits put around their point, with zeros where there are none,
are worth what the digits and the point say. -/
theorem isPointText_placeDigits {digits : List Char} (h : IsDigits digits) (point : ℤ) :
    IsPointText (Element.numberStyle.placeDigits digits point).toList
      ((Nat.ofDigitChars 10 digits 0 : ℕ) * (10 : ℚ) ^ (point - digits.length)) := by
  rw [NumberStyle.placeDigits]
  simp only
  split
  · -- the point in front of all digits
    obtain ⟨zeros, rfl⟩ : ∃ zeros : ℕ, point = -zeros := ⟨(-point).toNat, by omega⟩
    simpa using isPointText_zeros_append h zeros
  split
  · -- the point behind all digits
    obtain ⟨zeros, hzeros⟩ : ∃ zeros : ℕ, point - digits.length = zeros :=
      ⟨(point - digits.length).toNat, by omega⟩
    rw [hzeros]
    simpa [Element.numberStyle] using isPointText_append_zeros h zeros
  · -- the point among the digits
    obtain ⟨place, rfl⟩ : ∃ place : ℕ, point = place := ⟨point.toNat, by omega⟩
    simpa using isPointText_take_drop h (by omega) (by omega)

/-- The magnitude of a finite double is written with a point, and reads back. -/
theorem exists_parts_of_magnitudeText {x : Binary64} (h : x.isFinite = true) :
    ∃ whole fraction, IsDigits whole ∧ IsDigits fraction ∧
      (Element.numberStyle.magnitudeText x).toList = whole ++ '.' :: fraction ∧
      (Decimal.ofParts whole fraction).toBinary64 x.negative = x := by
  rw [NumberStyle.magnitudeText]
  split
  · rename_i hzero
    refine ⟨['0'], ['0'], ⟨by simp, by simp⟩, ⟨by simp, by simp⟩, by simp [Element.numberStyle], ?_⟩
    rw [Decimal.toBinary64_of_digits_eq_zero (by simp [Decimal.ofParts, Nat.ofDigitChars_cons]),
      ← Binary64.field_eq_zero_of_grains hzero, Binary64.ofField_field h]
  · rename_i hzero
    have hdigits := Decimal.isDigits_significant
      (Decimal.digits_shortest_ne_zero Element.numberStyle.tie h hzero)
    obtain ⟨whole, fraction, hwhole, hfraction, htext, hvalue⟩ :=
      isPointText_placeDigits hdigits (Decimal.shortest Element.numberStyle.tie x).point
    refine ⟨whole, fraction, hwhole, hfraction, htext, ?_⟩
    rw [← Decimal.value_eq_significant] at hvalue
    rw [Decimal.toBinary64_congr hvalue, Decimal.toBinary64_shortest _ h]

/-- **A run of characters of one class** is taken off whatever begins with none. -/
theorem takeWhile_dropWhile_append {p : Char → Bool} {run : List Char}
    (hrun : ∀ c ∈ run, p c = true) (rest : List Char) (hrest : ∀ c ∈ rest.head?, p c = false) :
    (run ++ rest).takeWhile p = run ∧ (run ++ rest).dropWhile p = rest := by
  rw [List.takeWhile_append_of_pos hrun, List.dropWhile_append_of_pos hrun]
  cases rest with
  | nil => simp
  | cons c cs => simp [hrest c rfl]

namespace Numeral

/-! ### Reading what was written -/

/-- A minus sign, or nothing. -/
def sign (negative : Bool) : List Char := if negative then ['-'] else []

/-- Digits belong into numbers. -/
theorem isPart_of_isDigit {c : Char} (h : c.isDigit = true) : isPart c = true := by
  simp [isPart, h]

/-- The sign comes off digits and points again. -/
theorem splitSign_sign (negative : Bool) {c : Char} (hc : isPart c = true) (cs : List Char) :
    splitSign (sign negative ++ c :: cs) = (negative, c :: cs) := by
  cases negative with
  | true => rfl
  | false =>
      simp only [sign, Bool.false_eq_true, if_false, List.nil_append]
      rw [splitSign.eq_def]
      split
      · rename_i heq
        cases heq
        exact absurd hc (by decide)
      · rfl

/-- Digits without a point are read as a whole number. -/
theorem read?_digits (negative : Bool) {digits : List Char} (h : IsDigits digits) :
    read? (sign negative ++ digits) = integer? negative digits := by
  obtain ⟨htake, hdrop⟩ := takeWhile_dropWhile_append h.2 [] (by simp)
  rw [List.append_nil] at htake hdrop
  cases digits with
  | nil => exact absurd rfl h.1
  | cons c cs =>
      simp only [read?, splitSign_sign negative (isPart_of_isDigit (h.2 c (by simp))), htake, hdrop]
      simp

/-- Digits on both sides of a point are read as a double. -/
theorem read?_point (negative : Bool) {whole fraction : List Char} (hw : IsDigits whole)
    (hf : IsDigits fraction) :
    read? (sign negative ++ (whole ++ '.' :: fraction)) = double? negative whole fraction := by
  obtain ⟨htake, hdrop⟩ := takeWhile_dropWhile_append hw.2 ('.' :: fraction) (by simp)
  have hall : (!fraction.isEmpty && fraction.all Char.isDigit) = true := by
    simp [hf.1, List.all_eq_true.mpr hf.2]
  cases whole with
  | nil => exact absurd rfl hw.1
  | cons c cs =>
      rw [List.cons_append] at htake hdrop
      simp only [read?, List.cons_append,
        splitSign_sign negative (isPart_of_isDigit (hw.2 c (by simp))), htake, hdrop, hall]
      simp

/-- A whole number is written as its sign and the digits of its size. -/
theorem toList_repr_int (n : ℤ) :
    (Int.repr n).toList = sign (decide (n < 0)) ++ Nat.toDigits 10 n.natAbs := by
  cases n with
  | ofNat m =>
      have hsign : decide (Int.ofNat m < 0) = false := by simp
      rw [hsign]
      simp [Int.repr, sign]
  | negSucc m =>
      have hsign : decide (Int.negSucc m < 0) = true := by simp [Int.negSucc_lt_zero]
      rw [hsign]
      simp [Int.repr, sign]

/-- **Whole numbers read back.** -/
theorem read?_integer (value : Int32) :
    read? (Element.integer value).text.toList = some (.integer value) := by
  have hlow := value.le_toInt
  have hhigh := value.toInt_lt
  have hsize : (if decide (value.toInt < 0) then -(value.toInt.natAbs : ℤ)
      else value.toInt.natAbs) = value.toInt := by
    by_cases hneg : value.toInt < 0
    · rw [decide_eq_true hneg, if_pos rfl]
      omega
    · rw [decide_eq_false hneg, if_neg Bool.false_ne_true]
      omega
  have hrange : -(twoTo 31 : ℤ) ≤ value.toInt ∧ value.toInt < (twoTo 31 : ℤ) := by
    rw [twoTo_eq]
    push_cast
    exact ⟨hlow, hhigh⟩
  rw [Element.text, toList_repr_int, read?_digits _ (isDigits_toDigits _)]
  simp only [integer?, Nat.ofDigitChars_ten_toDigits, hsize, if_pos hrange, Int32.ofInt_toInt]

/-- A finite double is written as its sign and its magnitude, in any style. -/
theorem toList_render (style : NumberStyle) {x : Binary64} (h : x.isFinite = true) :
    (style.render x).toList = sign x.negative ++ (style.magnitudeText x).toList := by
  simp only [NumberStyle.render, Binary64.isNaN_of_isFinite h, h, sign]
  cases x.negative <;> simp

/-- **Finite doubles read back**, bit for bit. -/
theorem read?_double {x : Binary64} (h : x.isFinite = true) :
    read? (Element.double x).text.toList = some (.double x) := by
  obtain ⟨whole, fraction, hwhole, hfraction, htext, hread⟩ := exists_parts_of_magnitudeText h
  rw [Element.text, toList_render _ h, htext, read?_point x.negative hwhole hfraction]
  simp only [double?]
  rw [show Decimal.mk _ _ = Decimal.ofParts whole fraction from rfl, hread]
  simp [h]

/-! ### Literals in front of something else -/

/-- **What is read has one of two forms**: digits, or digits on both sides of a point. -/
theorem exists_parts_of_read? {lexeme : List Char} {v : Numeral} (h : read? lexeme = some v) :
    ∃ negative,
      (∃ digits, IsDigits digits ∧ lexeme = sign negative ++ digits ∧
        integer? negative digits = some v) ∨
      ∃ whole fraction, IsDigits whole ∧ IsDigits fraction ∧
        lexeme = sign negative ++ (whole ++ '.' :: fraction) ∧
        double? negative whole fraction = some v := by
  rcases hs : splitSign lexeme with ⟨negative, body⟩
  have hlexeme : lexeme = sign negative ++ body := by
    rw [← eq_of_splitSign hs]
    cases negative <;> rfl
  have hbody := List.takeWhile_append_dropWhile (p := Char.isDigit) (l := body)
  have hwhole : ∀ d ∈ body.takeWhile Char.isDigit, d.isDigit = true :=
    fun d hd => List.mem_takeWhile_imp hd
  simp only [read?, hs] at h
  refine ⟨negative, ?_⟩
  split at h
  · cases h
  · rename_i hne
    rw [List.isEmpty_iff] at hne
    split at h
    · rename_i hdrop
      rw [hdrop, List.append_nil] at hbody
      exact Or.inl ⟨_, ⟨hne, hwhole⟩, by rw [hlexeme, hbody], h⟩
    · rename_i fraction hdrop
      rw [hdrop] at hbody
      split at h
      · rename_i hall
        simp only [Bool.and_eq_true, Bool.not_eq_true', List.isEmpty_eq_false_iff,
          List.all_eq_true] at hall
        exact Or.inr ⟨_, fraction, ⟨hne, hwhole⟩, hall, by rw [hlexeme, hbody], h⟩
      · cases h
    · cases h

/-- A literal that reads begins, behind its sign, with a digit, and goes on with digits and
points. -/
theorem exists_sign_of_read? {lexeme : List Char} {v : Numeral} (h : read? lexeme = some v) :
    ∃ negative c cs, lexeme = sign negative ++ c :: cs ∧ c.isDigit = true ∧
      ∀ d ∈ c :: cs, isPart d = true := by
  obtain ⟨negative, ⟨digits, hdigits, rfl, -⟩ | ⟨whole, fraction, hwhole, hfraction, rfl, -⟩⟩ :=
    exists_parts_of_read? h
  · obtain ⟨c, cs, rfl⟩ := List.exists_cons_of_ne_nil hdigits.1
    exact ⟨negative, c, cs, rfl, hdigits.2 c (by simp),
      fun d hd => isPart_of_isDigit (hdigits.2 d hd)⟩
  · obtain ⟨c, cs, rfl⟩ := List.exists_cons_of_ne_nil hwhole.1
    refine ⟨negative, c, cs ++ '.' :: fraction, rfl, hwhole.2 c (by simp), fun d hd => ?_⟩
    rw [← List.cons_append] at hd
    rcases List.mem_append.mp hd with hd | hd
    · exact isPart_of_isDigit (hwhole.2 d hd)
    rcases List.mem_cons.mp hd with rfl | hd
    · rfl
    · exact isPart_of_isDigit (hfraction.2 d hd)

/-- **Digits and points are scanned whole** in front of anything that is neither. -/
theorem scan?_sign_append (negative : Bool) {c : Char} {cs rest : List Char}
    (hall : ∀ d ∈ c :: cs, isPart d = true) (hrest : ∀ d ∈ rest.head?, isPart d = false) :
    scan? (sign negative ++ c :: cs ++ rest) = some (sign negative ++ c :: cs, rest) := by
  have htake := takeWhile_dropWhile_append hall rest hrest
  rw [List.cons_append] at htake
  simp only [scan?, List.append_assoc, List.cons_append,
    splitSign_sign negative (hall c (by simp)), htake]
  cases negative <;> simp [sign]

end Numeral

end TagTemplate
