import TagTemplate.Decimal
import Mathlib.Algebra.Order.Field.Power
import Mathlib.Data.Rat.Cast.Order
import Mathlib.Tactic

/-!
# Reading and writing doubles are inverse

Rounding a ratio to a magnitude field looks at the ratio only, not at the numbers it is
given by (`fieldOfRatio_congr`), and a ratio that is a double's own number of grains rounds
to that double's field (`fieldOfRatio_grains`). Hence a decimal reads as its value says
(`Decimal.toBinary64_congr`), and the digits selected to write a finite double read back to
the very same double, sign of zero included.

## Main results

* `Decimal.toBinary64_exact`: the exact decimal of a finite double reads back.
* `Decimal.toBinary64_shortest`: so does the shortest one, whichever way ties go.
-/

namespace TagTemplate

/-- Powers of two, as the library writes them. -/
theorem twoTo_eq (n : ℕ) : twoTo n = 2 ^ n := by
  rw [twoTo, Nat.pow_eq]

/-- Powers of ten, as the library writes them. -/
theorem tenTo_eq (n : ℕ) : tenTo n = 10 ^ n := by
  rw [tenTo, Nat.pow_eq]

namespace Binary64

/-! ### Rounding looks at the ratio only -/

/-- Rounding to a whole number does not see a common factor. -/
theorem roundHalfEven_mul {k : ℕ} (hk : 0 < k) (num den : ℕ) :
    roundHalfEven (k * num) (k * den) = roundHalfEven num den := by
  have hquot : k * num / (k * den) = num / den := Nat.mul_div_mul_left num den hk
  have hmod : 2 * (k * num % (k * den)) = k * (2 * (num % den)) := by
    rw [Nat.mul_mod_mul_left]
    ring
  simp only [roundHalfEven, hquot, hmod, Nat.mul_lt_mul_left hk]

/-- Rounding to a field does not see a common factor. -/
theorem fieldOfRatio_mul {k : ℕ} (hk : 0 < k) (num den : ℕ) :
    fieldOfRatio (k * num) (k * den) = fieldOfRatio num den := by
  simp only [fieldOfRatio, Nat.mul_div_mul_left num den hk, Nat.mul_assoc,
    roundHalfEven_mul hk]

/-- **Rounding depends on the ratio alone**: equal ratios, in lowest terms or not, round
to the same field. -/
theorem fieldOfRatio_congr {num₁ den₁ num₂ den₂ : ℕ} (h₁ : 0 < den₁) (h₂ : 0 < den₂)
    (h : num₁ * den₂ = num₂ * den₁) : fieldOfRatio num₁ den₁ = fieldOfRatio num₂ den₂ := by
  calc fieldOfRatio num₁ den₁
      = fieldOfRatio (den₂ * num₁) (den₂ * den₁) := (fieldOfRatio_mul h₂ _ _).symm
    _ = fieldOfRatio (den₁ * num₂) (den₁ * den₂) := by
        rw [Nat.mul_comm den₂ num₁, h, Nat.mul_comm num₂ den₁, Nat.mul_comm den₂ den₁]
    _ = fieldOfRatio num₂ den₂ := fieldOfRatio_mul h₁ _ _

/-! ### Rounding is exact on doubles -/

/-- A multiple is divided without rounding. -/
theorem roundHalfEven_mul_self {den : ℕ} (h : 0 < den) (n : ℕ) :
    roundHalfEven (n * den) den = n := by
  simp [roundHalfEven, Nat.mul_div_cancel n h, h]

/-- In the least binade a field is its own number of grains, and no place is dropped. -/
theorem fieldOfRatio_fraction {fraction : ℕ} (h : fraction < 2 ^ 52) :
    fieldOfRatio fraction 1 = fraction := by
  have hlog : fraction.log2 - 52 = 0 := by
    by_cases hz : fraction = 0
    · simp [hz]
    · have := (Nat.log2_lt hz).mpr h
      omega
  have hround := roundHalfEven_mul_self Nat.one_pos fraction
  rw [Nat.mul_one] at hround
  simp only [fieldOfRatio, Nat.div_one, hlog, twoTo_eq, pow_zero, Nat.mul_one, hround]
  omega

/-- In the other binades as many places are dropped as were shifted in. -/
theorem fieldOfRatio_shifted {fraction : ℕ} (h : fraction < 2 ^ 52) (places : ℕ) :
    fieldOfRatio ((2 ^ 52 + fraction) * 2 ^ places) 1 =
      (places + 1) * 2 ^ 52 + fraction := by
  have hlog : ((2 ^ 52 + fraction) * 2 ^ places).log2 = 52 + places := by
    have hne : (2 ^ 52 + fraction) * 2 ^ places ≠ 0 := by positivity
    refine (Nat.log2_eq_iff hne).mpr ⟨?_, ?_⟩
    · rw [pow_add]
      exact Nat.mul_le_mul_right _ (Nat.le_add_right _ _)
    · calc (2 ^ 52 + fraction) * 2 ^ places
          < 2 ^ 53 * 2 ^ places := Nat.mul_lt_mul_of_pos_right (by omega) (by positivity)
        _ = 2 ^ (52 + places + 1) := by ring
  simp only [fieldOfRatio, Nat.div_one, hlog, Nat.add_sub_cancel_left, twoTo_eq,
    Nat.one_mul, roundHalfEven_mul_self (show 0 < 2 ^ places by positivity)]
  ring

/-- The grains of a field, rounded, give the field again. -/
theorem fieldOfRatio_grainsOf (field : ℕ) : fieldOfRatio (grainsOf field) 1 = field := by
  have hlt : field % 2 ^ 52 < 2 ^ 52 := Nat.mod_lt _ (by positivity)
  have hdiv := Nat.div_add_mod' field (2 ^ 52)
  simp only [grainsOf, twoTo_eq]
  by_cases h0 : field / 2 ^ 52 = 0
  · rw [if_pos h0, fieldOfRatio_fraction hlt]
    omega
  · rw [if_neg h0]
    obtain ⟨places, hplaces⟩ : ∃ places, field / 2 ^ 52 = places + 1 :=
      ⟨field / 2 ^ 52 - 1, by omega⟩
    rw [hplaces, Nat.add_sub_cancel, fieldOfRatio_shifted hlt, ← hplaces]
    exact hdiv

/-- The grains of a double, over any common factor, round to its own field. -/
theorem fieldOfRatio_grains (x : Binary64) {k : ℕ} (hk : 0 < k) :
    fieldOfRatio (x.grains * k) k = x.field := by
  rw [← fieldOfRatio_grainsOf x.field]
  exact fieldOfRatio_congr hk Nat.one_pos (by simp [grains])

/-- A finite double is the double of its sign and field. -/
theorem ofField_field {x : Binary64} (h : x.isFinite = true) :
    ofField x.negative x.field = x := by
  have hle : x.field ≤ infinityField := by
    simp only [isFinite, decide_eq_true_eq] at h
    omega
  rw [ofField, Nat.min_eq_left hle]
  simp [field]

/-- A finite double is a number. -/
theorem isNaN_of_isFinite {x : Binary64} (h : x.isFinite = true) : x.isNaN = false := by
  simp only [isFinite, isNaN, decide_eq_true_eq, decide_eq_false_iff_not] at *
  omega

/-- Only the zeros have no grains. -/
theorem field_eq_zero_of_grains {x : Binary64} (h : x.grains = 0) : x.field = 0 := by
  have := fieldOfRatio_grains x Nat.one_pos
  rw [h] at this
  simpa [fieldOfRatio, roundHalfEven] using this.symm

end Binary64

namespace Decimal

/-! ### Decimals read as their values say -/

/-- The number a decimal stands for. -/
def value (d : Decimal) : ℚ := d.digits * (10 : ℚ) ^ d.exponent

/-- The value of a decimal as the ratio that is rounded. -/
theorem value_eq_div (d : Decimal) :
    d.value = ((d.digits * tenTo d.exponent.toNat : ℕ) : ℚ) /
      (tenTo (-d.exponent).toNat : ℕ) := by
  obtain ⟨digits, exponent⟩ := d
  simp only [value, tenTo_eq]
  rcases Int.le_total 0 exponent with h | h
  · obtain ⟨n, rfl⟩ := Int.eq_ofNat_of_zero_le h
    simp
  · obtain ⟨n, hn⟩ := Int.eq_ofNat_of_zero_le (show 0 ≤ -exponent by omega)
    obtain rfl : exponent = -(n : ℤ) := by omega
    simp [zpow_neg, div_eq_mul_inv]

/-- **Reading looks at the value only**: decimals of the same value read as the same
double. -/
theorem toBinary64_congr {d e : Decimal} (h : d.value = e.value) (negative : Bool) :
    d.toBinary64 negative = e.toBinary64 negative := by
  have hpos : ∀ n : ℤ, 0 < tenTo n.toNat := fun n => Nat.pow_pos (by decide)
  rw [value_eq_div, value_eq_div, div_eq_div_iff (by exact_mod_cast (hpos _).ne')
    (by exact_mod_cast (hpos _).ne')] at h
  have hcross : d.digits * tenTo d.exponent.toNat * tenTo (-e.exponent).toNat =
      e.digits * tenTo e.exponent.toNat * tenTo (-d.exponent).toNat := by
    exact_mod_cast h
  refine congrArg (Binary64.ofField negative)
    (Binary64.fieldOfRatio_congr (hpos _) (hpos _) ?_)
  rw [Nat.mul_right_comm, hcross, Nat.mul_right_comm]

/-! ### What is written reads back -/

/-- Grains written with as many places as one unit has halvings read back. -/
theorem toBinary64_of_grains {x : Binary64} (h : x.isFinite = true) {d : Decimal} {places : ℕ}
    (hunit : Binary64.grainsPerUnit = twoTo places)
    (hdigits : d.digits = x.grains * Nat.pow 5 places) (hexponent : d.exponent = -places) :
    d.toBinary64 x.negative = x := by
  have hten : Nat.pow 5 places * Binary64.grainsPerUnit = tenTo places := by
    rw [hunit]
    exact (Nat.mul_pow 5 2 places).symm
  have hpos : 0 < tenTo places := Nat.pow_pos (by decide)
  simp only [toBinary64, Binary64.ofRatio, hdigits, hexponent]
  rw [show (-(places : ℤ)).toNat = 0 by omega, show (-(-(places : ℤ))).toNat = places by omega,
    show tenTo 0 = 1 from rfl, Nat.mul_one, Nat.mul_assoc, hten,
    Binary64.fieldOfRatio_grains x hpos, Binary64.ofField_field h]

/-- **The exact decimal reads back.** -/
theorem toBinary64_exact {x : Binary64} (h : x.isFinite = true) :
    (exact x).toBinary64 x.negative = x := by
  have hunit := Binary64.grainsPerUnit.eq_1
  have hdigits : (exact x).digits = x.grains * Nat.pow 5 1074 := by simp only [exact]
  have hexponent : (exact x).exponent = -((1074 : ℕ) : ℤ) := rfl
  -- the number of places is forgotten, lest the powers be worked out
  generalize 1074 = places at hunit hdigits hexponent
  exact toBinary64_of_grains h hunit hdigits hexponent

/-- A decimal found on a grid reads back: the reader itself is the test. -/
theorem toBinary64_of_onGrid? {tie : Tie} {x : Binary64} {count : ℕ} {d : Decimal}
    (h : onGrid? tie x count = some d) : d.toBinary64 x.negative = x := by
  have hfound := List.find?_some h
  exact eq_of_beq hfound

/-- **The shortest decimal reads back** to the double it was selected for. -/
theorem toBinary64_shortest (tie : Tie) {x : Binary64} (h : x.isFinite = true) :
    (shortest tie x).toBinary64 x.negative = x := by
  rw [shortest]
  cases hs : (List.range' 1 17).findSome? (onGrid? tie x) with
  | none => exact toBinary64_exact h
  | some d =>
      obtain ⟨count, -, hd⟩ := List.exists_of_findSome?_eq_some hs
      exact toBinary64_of_onGrid? hd

/-- Digits that are all zero read as zero. -/
theorem toBinary64_of_digits_eq_zero {d : Decimal} (h : d.digits = 0) (negative : Bool) :
    d.toBinary64 negative = Binary64.ofField negative 0 := by
  simp [toBinary64, h, Binary64.ofRatio, Binary64.fieldOfRatio, Binary64.roundHalfEven]

/-- The shortest decimal of a double other than the zeros has digits other than zero. -/
theorem digits_shortest_ne_zero (tie : Tie) {x : Binary64} (h : x.isFinite = true)
    (hx : x.grains ≠ 0) : (shortest tie x).digits ≠ 0 := by
  intro hzero
  have hread := toBinary64_shortest tie h
  rw [toBinary64_of_digits_eq_zero hzero] at hread
  have hfield : x.field = 0 := by
    rw [← hread]
    simp [Binary64.ofField, Binary64.field]
  exact hx (by simp [Binary64.grains, hfield, Binary64.grainsOf])

end Decimal

end TagTemplate
