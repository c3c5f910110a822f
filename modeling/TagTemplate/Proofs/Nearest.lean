import TagTemplate.Proofs.Rounding

/-!
# Reading gives the nearest double

A magnitude field stands for a number of grains, and `fieldOfRatio` finds the field for a ratio of
grains. This module says what it finds in terms of these numbers alone: no other field stands for a
number nearer to the ratio, and where another one is as near the field found is even (`IsNearest`).
That is known of one field at most (`IsNearest.unique`).

## Overflow convention

Every natural number is a field here, those at and past `infinityField` too. They go on as the
finite ones do, so `infinityField` stands for the number that would follow the largest finite
double. A number is beyond the range of doubles exactly if its nearest field is one of these.

## How the proof goes

A field is `places * 2 ^ 52 + significand`, and its grains are `significand * 2 ^ places`
(`grainsOf_add`). Rounding drops as many places as leave a significand of 53 bits and takes the
nearest whole number of what remains. A field with as many places or more stands for such a whole
number too, and one with fewer places is below the least significand that has them, which is itself
no nearer than the one that was taken.

## Main results

* `grainsOf_strictMono`: fields are ordered as the numbers they stand for.
* `isNearest_fieldOfRatio`: rounding finds the nearest field, ties to even.
* `Decimal.toBinary64_eq_iff`: what a decimal reads as, if it is in range.
-/

namespace TagTemplate

namespace Binary64

/-! ### Fields and their grains -/

/-- The grains of a field by its places and its significand, which may be one past 53 bits. -/
theorem grainsOf_add {places significand : ℕ} (hlow : places = 0 ∨ 2 ^ 52 ≤ significand)
    (hhigh : significand ≤ 2 ^ 53) :
    grainsOf (places * 2 ^ 52 + significand) = significand * 2 ^ places := by
  simp only [grainsOf, twoTo_eq]
  rcases Nat.lt_or_ge significand (2 ^ 52) with hlt | hge
  · -- the least binade: the fraction is all there is
    obtain rfl : places = 0 := hlow.resolve_right (by omega)
    rw [if_pos (by omega)]
    omega
  obtain rfl | hlt := Nat.eq_or_lt_of_le hhigh
  · -- one past 53 bits: the next binade begins
    have hdiv : (places * 2 ^ 52 + 2 ^ 53) / 2 ^ 52 = places + 1 + 1 := by omega
    have hmod : (places * 2 ^ 52 + 2 ^ 53) % 2 ^ 52 = 0 := by omega
    rw [if_neg (by omega), hdiv, hmod, Nat.add_sub_cancel]
    ring
  · have hdiv : (places * 2 ^ 52 + significand) / 2 ^ 52 = places + 1 := by omega
    have hmod : 2 ^ 52 + (places * 2 ^ 52 + significand) % 2 ^ 52 = significand := by omega
    rw [if_neg (by omega), hdiv, hmod, Nat.add_sub_cancel]

/-- Every field has places and a significand of 53 bits. -/
theorem exists_eq_places_add (field : ℕ) :
    ∃ places significand, (places = 0 ∨ 2 ^ 52 ≤ significand) ∧ significand < 2 ^ 53 ∧
      field = places * 2 ^ 52 + significand := by
  rcases Nat.lt_or_ge field (2 ^ 52) with hlt | hge
  · exact ⟨0, field, Or.inl rfl, by omega, by omega⟩
  · exact ⟨field / 2 ^ 52 - 1, 2 ^ 52 + field % 2 ^ 52, Or.inr (by omega), by omega, by omega⟩

/-- **Fields are ordered as the numbers they stand for.** -/
theorem grainsOf_strictMono : StrictMono grainsOf := by
  refine strictMono_nat_of_lt_succ fun field => ?_
  obtain ⟨places, significand, hlow, hhigh, rfl⟩ := exists_eq_places_add field
  rw [Nat.add_assoc, grainsOf_add hlow hhigh.le, grainsOf_add (hlow.imp_right (by omega)) hhigh]
  exact Nat.mul_lt_mul_of_pos_right (Nat.lt_succ_self _) (by positivity)

/-- What fields stand for, next to those with a given number of places: multiples of the unit of
these, if there are as many places or more, and otherwise less than the least of them. -/
theorem grainsOf_cases (field places : ℕ) :
    (∃ m, grainsOf field = m * 2 ^ places) ∨
      (places ≠ 0 ∧ grainsOf field < 2 ^ 52 * 2 ^ places) := by
  obtain ⟨places', significand, hlow, hhigh, rfl⟩ := exists_eq_places_add field
  rw [grainsOf_add hlow hhigh.le]
  rcases Nat.lt_or_ge places' places with hfewer | hmore
  · refine Or.inr ⟨by omega, ?_⟩
    calc significand * 2 ^ places' < 2 ^ 53 * 2 ^ places' :=
          Nat.mul_lt_mul_of_pos_right hhigh (by positivity)
      _ = 2 ^ 52 * 2 ^ (places' + 1) := by ring
      _ ≤ 2 ^ 52 * 2 ^ places :=
          Nat.mul_le_mul_left _ (Nat.pow_le_pow_right two_pos hfewer)
  · refine Or.inl ⟨significand * 2 ^ (places' - places), ?_⟩
    rw [Nat.mul_assoc, ← pow_add, Nat.sub_add_cancel hmore]

/-! ### Nearest fields -/

/-- **The nearest field** to a number of grains, ties to even. -/
structure IsNearest (q : ℚ) (field : ℕ) : Prop where
  /-- No field is nearer. -/
  le : ∀ other, |(grainsOf field : ℚ) - q| ≤ |(grainsOf other : ℚ) - q|
  /-- Where another one is as near this one is even. -/
  even : ∀ other, other ≠ field → |(grainsOf other : ℚ) - q| = |(grainsOf field : ℚ) - q| →
    field % 2 = 0

/-- Of two fields that are both nearest the lower one is not even, or the upper one is not. -/
theorem IsNearest.not_lt {q : ℚ} {field field' : ℕ} (h : IsNearest q field)
    (h' : IsNearest q field') : ¬ field < field' := by
  intro hlt
  have hsame : |(grainsOf field' : ℚ) - q| = |(grainsOf field : ℚ) - q| :=
    le_antisymm (h'.le field) (h.le field')
  have heven := h.even field' hlt.ne' hsame
  have heven' := h'.even field hlt.ne hsame.symm
  -- both are even, so that there is a field between them, which is nearer
  have hbelow : (grainsOf field : ℚ) < grainsOf (field + 1) := by
    exact_mod_cast grainsOf_strictMono (Nat.lt_succ_self field)
  have habove : (grainsOf (field + 1) : ℚ) < grainsOf field' := by
    have hbetween : field + 1 < field' := by omega
    exact_mod_cast grainsOf_strictMono hbetween
  have hmiddle : (grainsOf field' : ℚ) - q = -(grainsOf field - q) :=
    (abs_eq_abs.mp hsame).resolve_left fun heq => by linarith
  have hnearer : |(grainsOf (field + 1) : ℚ) - q| < |(grainsOf field : ℚ) - q| := by
    rw [abs_of_neg (show (grainsOf field : ℚ) - q < 0 by linarith)]
    exact abs_lt.mpr ⟨by linarith, by linarith⟩
  exact absurd (h.le (field + 1)) (not_le.mpr hnearer)

/-- **There is one nearest field at most.** -/
theorem IsNearest.unique {q : ℚ} {field field' : ℕ} (h : IsNearest q field)
    (h' : IsNearest q field') : field = field' :=
  Nat.le_antisymm (Nat.le_of_not_lt (h'.not_lt h)) (Nat.le_of_not_lt (h.not_lt h'))

/-! ### Rounding to a whole number -/

/-- The ratio of numbers by quotient and remainder. -/
theorem ratio_eq {num den : ℕ} (h : 0 < den) :
    (num : ℚ) / den = (num / den : ℕ) + ((num % den : ℕ) : ℚ) / den := by
  have hden : (den : ℚ) ≠ 0 := by exact_mod_cast h.ne'
  have hsplit : ((den * (num / den) + num % den : ℕ) : ℚ) = num := by
    rw [Nat.div_add_mod]
  rw [div_eq_iff hden, add_mul, div_mul_cancel₀ _ hden, ← hsplit]
  push_cast
  ring

/-- **Rounding goes no farther than half**, and half of the way to an even number only. -/
theorem abs_roundHalfEven_sub (num : ℕ) {den : ℕ} (h : 0 < den) :
    |(roundHalfEven num den : ℚ) - num / den| ≤ 1 / 2 ∧
      (|(roundHalfEven num den : ℚ) - num / den| = 1 / 2 → roundHalfEven num den % 2 = 0) := by
  have hden : (0 : ℚ) < den := by exact_mod_cast h
  have hpart : 0 ≤ ((num % den : ℕ) : ℚ) / den := by positivity
  have hpart' : ((num % den : ℕ) : ℚ) / den < 1 := by
    rw [div_lt_one hden]
    exact_mod_cast Nat.mod_lt num h
  rw [ratio_eq h, roundHalfEven]
  split
  · -- less than half is left
    rename_i hless
    have hhalf : ((num % den : ℕ) : ℚ) / den < 1 / 2 := by
      rw [div_lt_div_iff₀ hden two_pos]
      exact_mod_cast by omega
    rw [sub_add_cancel_left, abs_neg, abs_of_nonneg hpart]
    exact ⟨hhalf.le, fun heq => absurd heq hhalf.ne⟩
  split
  · -- more than half is left
    rename_i hmore
    have hhalf : 1 / 2 < ((num % den : ℕ) : ℚ) / den := by
      rw [div_lt_div_iff₀ two_pos hden]
      exact_mod_cast by omega
    have hdist : ((num / den + 1 : ℕ) : ℚ) - ((num / den : ℕ) + ((num % den : ℕ) : ℚ) / den) =
        1 - ((num % den : ℕ) : ℚ) / den := by
      push_cast
      ring
    rw [hdist, abs_of_pos (by linarith)]
    exact ⟨by linarith, fun heq => by linarith⟩
  · -- half is left
    have hhalf : ((num % den : ℕ) : ℚ) / den = 1 / 2 := by
      rw [div_eq_div_iff hden.ne' two_ne_zero]
      exact_mod_cast by omega
    refine ⟨?_, fun _ => by omega⟩
    rw [hhalf]
    rcases Nat.mod_two_eq_zero_or_one (num / den) with hmod | hmod
    · rw [hmod, Nat.add_zero, sub_add_cancel_left, abs_neg, abs_of_pos (by norm_num)]
    · rw [hmod]
      push_cast
      rw [add_sub_add_left_eq_sub, abs_of_pos (by norm_num)]
      norm_num

/-- A whole number no farther than half is nearest of all, and there is another one as near only
where it is half. -/
theorem abs_sub_le_of_half {r : ℕ} {x : ℚ} (h : |(r : ℚ) - x| ≤ 1 / 2) (other : ℕ) :
    |(r : ℚ) - x| ≤ |(other : ℚ) - x| ∧
      (other ≠ r → |(other : ℚ) - x| = |(r : ℚ) - x| → |(r : ℚ) - x| = 1 / 2) := by
  by_cases hne : other = r
  · subst hne
    exact ⟨le_refl _, fun hother => absurd rfl hother⟩
  · have hapart : (1 : ℚ) ≤ |(other : ℚ) - r| := by
      have hint : (1 : ℤ) ≤ |(other : ℤ) - r| := Int.one_le_abs (by omega)
      exact_mod_cast hint
    have htriangle : |(other : ℚ) - r| ≤ |(other : ℚ) - x| + |(r : ℚ) - x| := by
      rw [abs_sub_comm (r : ℚ) x]
      exact abs_sub_le _ _ _
    exact ⟨by linarith, fun _ heq => by linarith⟩

/-- Below a number the lower one is farther from it. -/
theorem abs_sub_lt_abs_sub {a b q : ℚ} (hab : a < b) (hbq : b ≤ q) : |b - q| < |a - q| := by
  rw [abs_of_nonpos (by linarith), abs_of_neg (by linarith)]
  linarith

/-! ### Rounding to a field -/

/-- What is left of a ratio when its places are dropped: a significand of 53 bits, and no less unless
there is nothing to drop. -/
theorem significand_bounds {num den places : ℕ} (h : places = Nat.log2 (num / den) - 52) :
    (places = 0 ∨ 2 ^ 52 ≤ num / (den * 2 ^ places)) ∧ num / (den * 2 ^ places) < 2 ^ 53 := by
  rw [← Nat.div_div_eq_div_mul]
  generalize num / den = whole at h
  by_cases hzero : whole = 0
  · subst hzero
    simp [h]
  have hlow := Nat.log2_self_le hzero
  have hhigh : whole < 2 ^ (whole.log2 + 1) := Nat.lt_log2_self
  constructor
  · by_cases hplaces : places = 0
    · exact Or.inl hplaces
    · refine Or.inr ((Nat.le_div_iff_mul_le (by positivity)).mpr ?_)
      calc 2 ^ 52 * 2 ^ places = 2 ^ whole.log2 := by
            rw [← pow_add]
            congr 1
            omega
        _ ≤ whole := hlow
  · refine (Nat.div_lt_iff_lt_mul (by positivity)).mpr ?_
    calc whole < 2 ^ (whole.log2 + 1) := hhigh
      _ ≤ 2 ^ (53 + places) := Nat.pow_le_pow_right two_pos (by omega)
      _ = 2 ^ 53 * 2 ^ places := pow_add _ _ _

/-- Rounding goes to the quotient or to the number behind it. -/
theorem roundHalfEven_bounds (num den : ℕ) :
    num / den ≤ roundHalfEven num den ∧ roundHalfEven num den ≤ num / den + 1 := by
  simp only [roundHalfEven]
  split
  · omega
  split <;> omega

/-- Distances in units of some places. -/
theorem abs_units_sub (m num den places : ℕ) :
    |((m * 2 ^ places : ℕ) : ℚ) - num / den| =
      |(m : ℚ) - num / (den * 2 ^ places : ℕ)| * 2 ^ places := by
  have hunit : (0 : ℚ) < 2 ^ places := by positivity
  have hunits : ((m * 2 ^ places : ℕ) : ℚ) - num / den =
      (m - num / (den * 2 ^ places : ℕ)) * 2 ^ places := by
    rw [sub_mul, Nat.cast_mul den, ← div_div, Nat.cast_pow, Nat.cast_ofNat,
      div_mul_cancel₀ _ hunit.ne']
    push_cast
    rfl
  rw [hunits, abs_mul, abs_of_pos hunit]

/-- **Rounding finds the nearest field**, ties to even. -/
theorem isNearest_fieldOfRatio (num : ℕ) {den : ℕ} (h : 0 < den) :
    IsNearest ((num : ℚ) / den) (fieldOfRatio num den) := by
  set places := Nat.log2 (num / den) - 52 with hplaces
  set significand := roundHalfEven num (den * 2 ^ places) with hsignificand
  obtain ⟨hlow, hhigh⟩ := significand_bounds hplaces
  obtain ⟨hle, hge⟩ := roundHalfEven_bounds num (den * 2 ^ places)
  rw [← hsignificand] at hle hge
  have hfield : fieldOfRatio num den = places * 2 ^ 52 + significand := by
    simp only [fieldOfRatio, twoTo_eq, ← hplaces, ← hsignificand]
  have hgrains : grainsOf (fieldOfRatio num den) = significand * 2 ^ places := by
    rw [hfield]
    exact grainsOf_add (hlow.imp_right (by omega)) (by omega)
  have hpositive : 0 < den * 2 ^ places := by positivity
  obtain ⟨hhalf, heven⟩ := abs_roundHalfEven_sub num hpositive
  rw [← hsignificand] at hhalf heven
  have hunit : (0 : ℚ) < 2 ^ places := by positivity
  have hunits (m : ℕ) : |((significand * 2 ^ places : ℕ) : ℚ) - num / den| ≤
      |((m * 2 ^ places : ℕ) : ℚ) - num / den| := by
    rw [abs_units_sub, abs_units_sub]
    exact mul_le_mul_of_nonneg_right (abs_sub_le_of_half hhalf m).1 hunit.le
  -- a field below all that have these places is farther away than the least of them
  have hbelow (g : ℕ) (hne : places ≠ 0) (hg : g < 2 ^ 52 * 2 ^ places) :
      |((significand * 2 ^ places : ℕ) : ℚ) - num / den| < |(g : ℚ) - num / den| := by
    have hreach : ((2 ^ 52 * 2 ^ places : ℕ) : ℚ) ≤ num / den := by
      rw [le_div_iff₀ (by exact_mod_cast h)]
      have hmul := (Nat.le_div_iff_mul_le (by positivity)).mp (hlow.resolve_left hne)
      exact_mod_cast (by rwa [Nat.mul_assoc, Nat.mul_comm (2 ^ places)])
    exact lt_of_le_of_lt (hunits _) (abs_sub_lt_abs_sub (by exact_mod_cast hg) hreach)
  constructor
  case le =>
    intro other
    rw [hgrains]
    rcases grainsOf_cases other places with ⟨m, hm⟩ | ⟨hne, hlt⟩
    · rw [hm]
      exact hunits m
    · exact (hbelow _ hne hlt).le
  case even =>
    intro other hne htie
    rw [hgrains] at htie
    rcases grainsOf_cases other places with ⟨m, hm⟩ | ⟨hplaces', hlt⟩
    · have hm' : m ≠ significand := by
        rintro rfl
        exact hne (grainsOf_strictMono.injective (hm.trans hgrains.symm))
      rw [hm, abs_units_sub, abs_units_sub] at htie
      have hsame := mul_right_cancel₀ hunit.ne' htie
      have hsig := heven ((abs_sub_le_of_half hhalf m).2 hm' hsame)
      rw [hfield]
      omega
    · exact absurd htie (hbelow _ hplaces' hlt).ne'

/-! ### Reading -/

/-- **The double that a size is rounded to**, with a sign in front: finite, and by the nearest
field. -/
structure Rounds (negative : Bool) (size : ℚ) (x : Binary64) : Prop where
  /-- The sign is kept, that of a zero too. -/
  sign : x.negative = negative
  /-- The size is in range. -/
  finite : x.isFinite = true
  /-- No double is nearer. -/
  nearest : IsNearest (size * grainsPerUnit) x.field

/-- The field of a double that was made of it, if it is in range. -/
theorem field_ofField (negative : Bool) (field : ℕ) :
    (ofField negative field).field = min field infinityField := by
  have hinfinity : infinityField < 2 ^ 63 := by
    simp only [infinityField, twoTo_eq]
    norm_num
  simp only [ofField, Binary64.field, BitVec.toNat_ofNat]
  exact Nat.mod_eq_of_lt (by omega)

end Binary64

namespace Decimal

open Binary64

/-- A decimal reads as the double of the nearest field. -/
theorem exists_isNearest (d : Decimal) (negative : Bool) :
    ∃ field, d.toBinary64 negative = ofField negative field ∧
      IsNearest (d.value * grainsPerUnit) field := by
  have hpos : 0 < tenTo (-d.exponent).toNat := Nat.pow_pos (by decide)
  have hnearest := isNearest_fieldOfRatio
    (d.digits * tenTo d.exponent.toNat * grainsPerUnit) hpos
  refine ⟨_, rfl, ?_⟩
  rwa [Nat.cast_mul, mul_div_right_comm, ← value_eq_div] at hnearest

/-- **What a decimal reads as**, if that is finite: the double that its value is rounded to. -/
theorem toBinary64_eq_iff {d : Decimal} {negative : Bool} {x : Binary64} :
    d.toBinary64 negative = x ∧ x.isFinite = true ↔ Rounds negative d.value x := by
  obtain ⟨field, hfield, hnearest⟩ := d.exists_isNearest negative
  rw [hfield]
  constructor
  · rintro ⟨rfl, hfinite⟩
    refine ⟨rfl, hfinite, ?_⟩
    simp only [isFinite, field_ofField, decide_eq_true_eq] at hfinite
    rwa [field_ofField, Nat.min_eq_left (by omega)]
  · rintro ⟨rfl, hfinite, hnearest'⟩
    refine ⟨?_, hfinite⟩
    rw [hnearest.unique hnearest', ofField_field hfinite]

end Decimal

end TagTemplate
