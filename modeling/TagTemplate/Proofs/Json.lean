import TagTemplate.Data.Json
import TagTemplate.Proofs.JsonText
import TagTemplate.Proofs.Markup

/-!
# What is written is JSON

Data is written in the grammar of `TagTemplate.Proofs.JsonText`, as one of the texts of the value
that it stands for (`Json.value`). That holds of every layout that has blanks where JSON allows
them. In a row the blanks in front of a closing bracket belong to what stands before them, which is
why rows are followed from a first item that is already there (`append_writeItems_mem`).

Doubles are the numbers that need an argument. Their digits go through two layouts, by where the
point falls; neither has a needless zero in front, and both are worth what the shortest digits are
worth, so that the nearest double is the one that was written.

## Main results

* `nearest_number`: finite doubles are written as numbers that read back, bit for bit.
* `string_mem_quoted`: strings are written in one of their spellings, whatever they hold.
* `write_mem_spellings`: data is written in one of the spellings of its value.
* `read?_pretty`: the value of data is read back from its text.
-/

namespace TagTemplate

/-! ### Numbers -/

/-- The digits of a number do not begin with a zero, unless it is zero. -/
theorem head?_toDigits_ne {n : ℕ} (h : n ≠ 0) : (Nat.toDigits 10 n).head? ≠ some '0' := by
  induction n using Nat.strongRecOn with
  | ind n ih =>
      rcases Nat.lt_or_ge n 10 with hlt | hge
      · rw [Nat.toDigits_of_lt_base hlt]
        interval_cases n <;> simp_all
      · have hquotient := ih (n / 10) (by omega) (by omega)
        rw [Nat.toDigits_of_base_le (by decide) hge,
          List.head?_append_of_ne_nil _ Nat.toDigits_ne_nil]
        exact hquotient

/-- The significant digits of a decimal do not begin with a zero. -/
theorem Decimal.head?_significant_ne {d : Decimal} (h : d.digits ≠ 0) :
    d.significant.head? ≠ some '0' := by
  obtain ⟨zeros, hzeros⟩ := d.toDigits_eq_significant
  have hhead := head?_toDigits_ne h
  rwa [hzeros, List.head?_append_of_ne_nil _ (d.isDigits_significant h).1] at hhead

namespace Json

/-- Whole numbers are written as numbers. -/
theorem repr_mem_numeral (n : ℤ) : (Int.repr n).toList ∈ numeral := by
  rw [Numeral.toList_repr_int, mem_numeral_iff]
  refine ⟨decide (n < 0), Nat.toDigits 10 n.natAbs, [], [], ?_, by simp, Or.inl rfl,
    by simp [pointed]⟩
  by_cases hzero : n.natAbs = 0
  · rw [hzero]
    exact Or.inl rfl
  · exact Or.inr ⟨isDigits_toDigits _, head?_toDigits_ne hzero⟩

/-- A text without a sign that is a number of a given value. -/
def IsNumeralText (text : List Char) (value : ℚ) : Prop :=
  ∃ front ∈ whole, ∃ ds : List Char, (∀ c ∈ ds, c.isDigit = true) ∧ ∃ back ∈ exponent,
    text = front ++ (pointed ds ++ back) ∧
      (Decimal.mk (Nat.ofDigitChars 10 (front ++ ds) 0) (readExponent back - ds.length)).value =
        value

/-- An exponent begins with neither a digit nor a point. -/
theorem head?_of_mem_exponent {back : List Char} (h : back ∈ exponent) :
    ∀ c ∈ back.head?, c.isDigit = false ∧ c ≠ '.' := by
  rcases mem_exponent_iff.mp h with rfl | ⟨mark, sign, ds, hmark, -, -, rfl⟩
  · simp
  · rcases hmark with rfl | rfl <;> simp

/-- **Numbers are worth what their text is**, with a sign in front or not. -/
theorem nearest_sign_append {text : List Char} {d : Decimal} (h : IsNumeralText text d.value)
    (negative : Bool) : Numeral.sign negative ++ text ∈ numeral ∧
      nearest (Numeral.sign negative ++ text) = d.toBinary64 negative := by
  obtain ⟨front, hfront, ds, hds, back, hback, rfl, hvalue⟩ := h
  refine ⟨mem_numeral_iff.mpr ⟨negative, front, ds, back, hfront, hds, hback, rfl⟩, ?_⟩
  rw [nearest_append negative (isDigits_of_mem_whole hfront) hds (head?_of_mem_exponent hback)]
  exact Decimal.toBinary64_congr hvalue negative

/-- Digits around their point, in front of which there is no needless zero. -/
theorem exists_whole_placeDigits {digits : List Char} (h : IsDigits digits)
    (hhead : digits.head? ≠ some '0') (point : ℤ) :
    ∃ front ∈ whole, ∃ back,
      (numberStyle.placeDigits digits point).toList = front ++ '.' :: back := by
  rw [NumberStyle.placeDigits]
  simp only
  split
  · exact ⟨['0'], Or.inl rfl, _, by simp; rfl⟩
  split
  · refine ⟨digits ++ List.replicate (point - digits.length).toNat '0', Or.inr ⟨?_, ?_⟩, ['0'],
      by simp [numberStyle]⟩
    · exact h.append fun c => isDigit_of_mem_zeros
    · rwa [List.head?_append_of_ne_nil _ h.1]
  · refine ⟨digits.take point.toNat, Or.inr ⟨⟨?_, ?_⟩, ?_⟩, digits.drop point.toNat, by simp⟩
    · rw [Ne, List.take_eq_nil_iff]
      rintro (hzero | hnil)
      · omega
      · exact h.1 hnil
    · exact fun c hc => h.2 c (List.mem_of_mem_take hc)
    · rwa [List.head?_take, if_neg (by omega)]

/-- **Digits around their point** are a number of their value. -/
theorem isNumeralText_placeDigits {digits : List Char} (h : IsDigits digits)
    (hhead : digits.head? ≠ some '0') (point : ℤ) :
    IsNumeralText (numberStyle.placeDigits digits point).toList
      ((Nat.ofDigitChars 10 digits 0 : ℕ) * (10 : ℚ) ^ (point - digits.length)) := by
  obtain ⟨front, hfront, back, htext⟩ := exists_whole_placeDigits h hhead point
  obtain ⟨front', ds, hfront', hds, htext', hvalue⟩ := isPointText_placeDigits h point
  -- both cut the text at its only point
  have hsame : numberStyle.placeDigits digits point =
      Element.numberStyle.placeDigits digits point := rfl
  have hnotMem : ∀ {cs : List Char}, IsDigits cs → '.' ∉ cs := by
    intro cs hcs hmem
    exact absurd (hcs.2 '.' hmem) (by decide)
  obtain ⟨rfl, rfl⟩ := Markup.append_cons_inj (hnotMem (isDigits_of_mem_whole hfront))
    (hnotMem hfront') (htext.symm.trans ((congrArg String.toList hsame).trans htext'))
  refine ⟨front, hfront, back, hds.2, [], Or.inl rfl, ?_, ?_⟩
  · rw [htext]
    simp [pointed, hds.1]
  · simpa [Decimal.ofParts, readExponent] using hvalue

/-- **Digits behind the first of which the point stands**, with the power of ten that belongs to
them, are a number of their value. -/
theorem isNumeralText_scientific {digits : List Char} (h : IsDigits digits)
    (hhead : digits.head? ≠ some '0') (point : ℤ) :
    IsNumeralText (numberStyle.scientific digits point).toList
      ((Nat.ofDigitChars 10 digits 0 : ℕ) * (10 : ℚ) ^ (point - digits.length)) := by
  obtain ⟨c, cs, rfl⟩ := List.exists_cons_of_ne_nil h.1
  set power := point - 1 with hpower
  set sign : List Char := if 0 ≤ power then ['+'] else ['-'] with hsign
  have hread : readExponent ('e' :: (sign ++ Nat.toDigits 10 power.natAbs)) = power := by
    rw [hsign]
    split
    · rw [List.singleton_append, readExponent, Nat.ofDigitChars_ten_toDigits]
      omega
    · rw [List.singleton_append, readExponent, Nat.ofDigitChars_ten_toDigits]
      omega
  refine ⟨[c], Or.inr ⟨⟨by simp, by simpa using h.2 c (by simp)⟩, by simpa using hhead⟩, cs,
    fun d hd => h.2 d (List.mem_cons_of_mem _ hd), 'e' :: (sign ++ Nat.toDigits 10 power.natAbs),
    mem_exponent_iff.mpr (Or.inr ⟨'e', sign, _, Or.inl rfl, ?_, isDigits_toDigits _, rfl⟩), ?_, ?_⟩
  · rw [hsign]
    split <;> simp
  · have hplus : (if 0 ≤ power then numberStyle.exponentPlus else "-").toList = sign := by
      rw [hsign]
      split <;> rfl
    rw [NumberStyle.scientific.eq_def]
    simp only [String.toList_append, ← hpower, hplus]
    cases cs <;> simp [pointed]
  · have hexp : power - cs.length = point - (c :: cs).length := by
      rw [hpower, List.length_cons]
      push_cast
      ring
    rw [hread, Decimal.value, hexp]
    rfl

/-- **The magnitude of a double is a number that reads back.** -/
theorem exists_isNumeralText {x : Binary64} (h : x.isFinite = true) :
    ∃ d : Decimal, IsNumeralText (numberStyle.magnitudeText x).toList d.value ∧
      d.toBinary64 x.negative = x := by
  rw [NumberStyle.magnitudeText]
  split
  · rename_i hzero
    refine ⟨Decimal.ofParts ['0'] ['0'], ⟨['0'], Or.inl rfl, ['0'], by simp, [], Or.inl rfl,
      by simp [numberStyle, pointed], by simp [Decimal.ofParts, readExponent]⟩, ?_⟩
    rw [Decimal.toBinary64_of_digits_eq_zero (by simp [Decimal.ofParts, Nat.ofDigitChars_cons]),
      ← Binary64.field_eq_zero_of_grains hzero, Binary64.ofField_field h]
  · rename_i hzero
    have hdigits := Decimal.digits_shortest_ne_zero numberStyle.tie h hzero
    refine ⟨Decimal.shortest numberStyle.tie x, ?_, Decimal.toBinary64_shortest _ h⟩
    rw [Decimal.value_eq_significant]
    simp only
    split
    · exact isNumeralText_placeDigits (Decimal.isDigits_significant hdigits)
        (Decimal.head?_significant_ne hdigits) _
    · exact isNumeralText_scientific (Decimal.isDigits_significant hdigits)
        (Decimal.head?_significant_ne hdigits) _

/-- **Finite doubles are written as numbers that read back**, bit for bit. -/
theorem nearest_number {x : Binary64} (h : x.isFinite = true) :
    (number x).toList ∈ numeral ∧ nearest (number x).toList = x := by
  obtain ⟨d, htext, hread⟩ := exists_isNumeralText h
  obtain ⟨hmem, hnearest⟩ := nearest_sign_append htext x.negative
  rw [number, if_pos h, Numeral.toList_render _ h]
  exact ⟨hmem, hnearest.trans hread⟩

/-! ### Strings -/

/-- The number of a control character is its last two hexadecimal digits. -/
theorem hexNumber?_digitChar {n : ℕ} (h : n < 0x20) :
    hexNumber? '0' '0' (Nat.digitChar (n / 16)) (Nat.digitChar (n % 16)) = some n := by
  revert n
  decide

/-- A character is written in one of its spellings. -/
theorem spells_escapeChar (c : Char) : Spells c (escapeChar c) := by
  by_cases hshort : c ∈ ['"', '\\', '\x08', '\x0c', '\n', '\r', '\t']
  · simp only [List.mem_cons, List.not_mem_nil, or_false] at hshort
    rcases hshort with rfl | rfl | rfl | rfl | rfl | rfl | rfl <;>
      exact .short (by simp [shortEscapes])
  · simp only [List.mem_cons, List.not_mem_nil, or_false, not_or] at hshort
    obtain ⟨hquote, hslash, hb, hf, hn, hr, ht⟩ := hshort
    simp only [escapeChar, hquote, hslash, hb, hf, hn, hr, ht, if_false]
    split
    · rename_i hcontrol
      exact .number (hexNumber?_digitChar hcontrol)
    · rename_i hcontrol
      exact .plain hquote hslash (Nat.le_of_not_lt hcontrol)

/-- **Strings are written in one of their spellings.** -/
theorem string_mem_quoted (s : String) : (string s).toList ∈ quoted s := by
  have hbody : ∀ cs : List Char, cs.flatMap escapeChar ∈ (cs.map spelling).prod := by
    intro cs
    induction cs with
    | nil => exact Language.nil_mem_one
    | cons c cs ih => exact Language.append_mem_mul (spells_escapeChar c) ih
  simp only [string, String.toList_append, String.toList_ofList]
  exact Language.append_mem_mul (Language.append_mem_mul rfl (hbody s.toList)) rfl

/-! ### Data -/

mutual

/-- The value that data is written as. -/
def value : Data → Value
  | .null => .null
  | .integer n => .number (Int.repr n).toList
  | .double x => if x.isFinite then .number (number x).toList else .null
  | .char c => .string (String.singleton c)
  | .string s => .string s
  | .list items => .array (valueItems items)
  | .record fields => .object (valueFields fields)

/-- The values that items are written as. -/
def valueItems : List Data → List Value
  | [] => []
  | x :: xs => value x :: valueItems xs

/-- The fields that fields are written as. -/
def valueFields : List (String × Data) → List (String × Value)
  | [] => []
  | (key, x) :: fields => (key, value x) :: valueFields fields

end

/-- A layout that has blanks where JSON allows them. -/
structure Layout.IsBlank (layout : Layout) : Prop where
  /-- Items are set off by blanks. -/
  lineBreak_mem : ∀ level, (layout.lineBreak level).toList ∈ blanks
  /-- A colon has blanks around it. -/
  exists_colon : ∃ a ∈ blanks, ∃ b ∈ blanks, layout.colon.toList = a ++ ':' :: b

/-- Line feeds and spaces are blanks. -/
theorem Layout.isBlank_pretty : Layout.pretty.IsBlank where
  lineBreak_mem level := by
    intro c hc
    simp only [Layout.pretty, String.toList_append, String.toList_ofList, List.mem_append] at hc
    rcases hc with hc | hc
    · obtain rfl : c = '\n' := by simpa using hc
      rfl
    · rw [List.eq_of_mem_replicate hc]
      rfl
  exists_colon := ⟨[], nil_mem_blanks, [' '], List.forall_mem_singleton.mpr rfl, rfl⟩

/-- Blanks in front of something that has blanks around it. -/
theorem append_mem_padded {L : Language Char} {gap t : List Char} (hgap : gap ∈ blanks)
    (ht : t ∈ L) : gap ++ t ∈ padded L :=
  mem_padded_iff.mpr ⟨gap, hgap, t, ht, [], nil_mem_blanks, by simp⟩

/-- Blanks in a row are blanks. -/
theorem append_mem_blanks {a b : List Char} (ha : a ∈ blanks) (hb : b ∈ blanks) :
    a ++ b ∈ blanks := by
  intro c hc
  exact (List.mem_append.mp hc).elim (ha c) (hb c)

/-- Blanks behind something that has blanks around it. -/
theorem padded_append_mem {L : Language Char} {w gap : List Char} (hw : w ∈ padded L)
    (hgap : gap ∈ blanks) : w ++ gap ∈ padded L := by
  obtain ⟨a, ha, t, ht, b, hb, rfl⟩ := mem_padded_iff.mp hw
  exact mem_padded_iff.mpr ⟨a, ha, t, ht, b ++ gap, append_mem_blanks hb hgap, by simp⟩

/-- Blanks behind something with a key in front of it. -/
theorem keyed_append_mem {key : String} {L : Language Char} {w gap : List Char}
    (hw : w ∈ keyed key (padded L)) (hgap : gap ∈ blanks) : w ++ gap ∈ keyed key (padded L) := by
  obtain ⟨front, hfront, x, hx, rfl⟩ := Language.mem_mul.mp hw
  rw [List.append_assoc]
  exact Language.append_mem_mul hfront (padded_append_mem hx hgap)

/-- A mark in front. -/
theorem cons_mem_mul (c : Char) {L : Language Char} {w : List Char} (h : w ∈ L) :
    c :: w ∈ {[c]} * L :=
  mem_mark_mul_iff.mpr ⟨w, h, rfl⟩

/-- A mark at the end. -/
theorem concat_mem_mul (c : Char) {L : Language Char} {w : List Char} (h : w ∈ L) :
    w ++ [c] ∈ L * {[c]} :=
  mem_mul_mark_iff.mpr ⟨w, h, rfl⟩

section Writing

variable {layout : Layout} (hlayout : layout.IsBlank)

include hlayout

/-- A field of a layout. -/
theorem field_mem_keyed (level : ℕ) (key : String) {L : Language Char} {t : List Char}
    (ht : t ∈ L) :
    (layout.lineBreak level ++ string key ++ layout.colon).toList ++ t ∈ keyed key (padded L) := by
  obtain ⟨a, ha, b, hb, hcolon⟩ := hlayout.exists_colon
  have hkey := padded_append_mem
    (append_mem_padded (hlayout.lineBreak_mem level) (string_mem_quoted key)) ha
  have hfield := Language.append_mem_mul (concat_mem_mul ':' hkey) (append_mem_padded hb ht)
  simpa [keyed, hcolon] using hfield

mutual

/-- **Data is written in one of the spellings of its value.** -/
theorem write_mem_spellings (level : ℕ) (d : Data) :
    (write layout level d).toList ∈ (value d).spellings := by
  match d with
  | .null => exact rfl
  | .integer n => exact ⟨rfl, repr_mem_numeral n⟩
  | .double x =>
      rw [write, value]
      split
      · rename_i h
        exact ⟨rfl, (nearest_number h).1⟩
      · rename_i h
        rw [number, if_neg h]
        exact rfl
  | .char c => exact string_mem_quoted _
  | .string s => exact string_mem_quoted s
  | .list [] =>
      have hlist := concat_mem_mul ']' (cons_mem_mul '[' nil_mem_blanks)
      simpa [write, value, valueItems, Value.spellings] using hlist
  | .list (x :: xs) =>
      have hfirst := append_mem_padded (hlayout.lineBreak_mem (level + 1))
        (write_mem_spellings (level + 1) x)
      have hitems := append_writeItems_mem (level + 1) xs hfirst (hlayout.lineBreak_mem level)
      have hlist := concat_mem_mul ']' (cons_mem_mul '[' hitems)
      simpa [write, value, valueItems, Value.spellings, mul_assoc] using hlist
  | .record [] =>
      have hrecord := concat_mem_mul '}' (cons_mem_mul '{' nil_mem_blanks)
      simpa [write, value, valueFields, Value.spellings] using hrecord
  | .record ((key, x) :: fields) =>
      have hfirst := field_mem_keyed hlayout (level + 1) key (write_mem_spellings (level + 1) x)
      have hfields := append_writeFields_mem (level + 1) fields hfirst (hlayout.lineBreak_mem level)
      have hrecord := concat_mem_mul '}' (cons_mem_mul '{' hfields)
      simpa [write, value, valueFields, Value.spellings, mul_assoc] using hrecord

/-- Items behind a first one, with blanks behind the last. -/
theorem append_writeItems_mem (level : ℕ) (xs : List Data) {L : Language Char}
    {first gap : List Char} (hfirst : first ∈ padded L) (hgap : gap ∈ blanks) :
    first ++ (writeItems layout level xs).toList ++ gap ∈
      padded L * Value.itemSpellings (valueItems xs) := by
  match xs with
  | [] =>
      have h := Language.append_mem_mul (padded_append_mem hfirst hgap) Language.nil_mem_one
      simpa [writeItems, valueItems, Value.itemSpellings] using h
  | x :: xs =>
      have hnext := append_mem_padded (hlayout.lineBreak_mem level) (write_mem_spellings level x)
      have hmore := append_writeItems_mem level xs hnext hgap
      have h := Language.append_mem_mul hfirst (cons_mem_mul ',' hmore)
      simpa [writeItems, valueItems, Value.itemSpellings, mul_assoc] using h

/-- Fields behind a first one, with blanks behind the last. -/
theorem append_writeFields_mem (level : ℕ) (fields : List (String × Data)) {key : String}
    {L : Language Char} {first gap : List Char} (hfirst : first ∈ keyed key (padded L))
    (hgap : gap ∈ blanks) :
    first ++ (writeFields layout level fields).toList ++ gap ∈
      keyed key (padded L) * Value.fieldSpellings (valueFields fields) := by
  match fields with
  | [] =>
      have h := Language.append_mem_mul (keyed_append_mem hfirst hgap) Language.nil_mem_one
      simpa [writeFields, valueFields, Value.fieldSpellings] using h
  | (key', x) :: fields =>
      have hnext := field_mem_keyed hlayout level key' (write_mem_spellings level x)
      have hmore := append_writeFields_mem level fields hnext hgap
      have h := Language.append_mem_mul hfirst (cons_mem_mul ',' hmore)
      simpa [writeFields, valueFields, Value.fieldSpellings, mul_assoc] using h

end

end Writing

/-- Data over several lines is a text of its value. -/
theorem pretty_mem_texts (d : Data) : (pretty d).toList ∈ (value d).texts :=
  append_mem_padded nil_mem_blanks (write_mem_spellings Layout.isBlank_pretty 0 d)

/-- **The value of data is read back from its text.** -/
theorem read?_pretty (d : Data) : read? (pretty d) = some (value d) :=
  read?_of_mem_texts (pretty_mem_texts d)

end Json

end TagTemplate
