import TagTemplate.Proofs.Literal
import TagTemplate.Token.Lexing
import Mathlib.Computability.Language
import Mathlib.Tactic

/-!
# JSON texts and their values

What JSON is, said apart from how this library writes it. A value has many texts: blanks may stand
around every part, and a character of a string may be written as it is or escaped.
`Value.spellings` is the grammar, one language for each value, and `read?` is a reader that goes
through a text from the left.

The reader finds the value of every text of the grammar (`read?_of_mem_texts`), so that a text has
one value at most. It is read in front of anything, numbers excepted, which end only where
something stands that belongs into no number (`EndsNumeral`). Every spelling begins with a character
that is neither a blank nor a closing bracket, which is how the reader knows an empty array from
others.

Numbers are kept as they are written, and `nearest` says which double they stand for.

## Main results

* `readString_append`: strings read back from each of their spellings.
* `readValue_append`: values read back from each of their spellings.
* `read?_of_mem_texts`: texts are read as the value they are texts of.
* `nearest_numeral`: what a number with a fraction and an exponent is worth.
-/

namespace TagTemplate.Json

/-- A JSON value. Numbers are kept as they are written and fields in the order in which they
stand. -/
inductive Value where
  | null
  | bool (value : Bool)
  | number (literal : List Char)
  | string (value : String)
  | array (items : List Value)
  | object (fields : List (String × Value))

/-! ### The grammar -/

/-- Blanks, or nothing. -/
def blanks : Language Char := {cs | ∀ c ∈ cs, isBlank c = true}

/-- Something with blanks around it. -/
def padded (L : Language Char) : Language Char := blanks * L * blanks

/-- Digits. -/
def digits : Language Char := {cs | IsDigits cs}

/-- Zero, or digits without a zero in front. -/
def whole : Language Char := {cs | cs = ['0'] ∨ IsDigits cs ∧ cs.head? ≠ some '0'}

/-- A point and digits, or nothing. -/
def fraction : Language Char := 1 + {['.']} * digits

/-- A power of ten with a sign or none, or nothing. -/
def exponent : Language Char :=
  1 + ({['e']} + {['E']}) * (1 + {['+']} + {['-']}) * digits

/-- Numbers. -/
def numeral : Language Char := (1 + {['-']}) * whole * fraction * exponent

/-- The characters that have an escape of one letter, and these letters. -/
def shortEscapes : List (Char × Char) :=
  [('"', '"'), ('\\', '\\'), ('/', '/'), ('\x08', 'b'), ('\x0c', 'f'), ('\n', 'n'), ('\r', 'r'),
    ('\t', 't')]

/-- The value of a hexadecimal digit. -/
def hexDigit? (c : Char) : Option Nat :=
  if '0' ≤ c ∧ c ≤ '9' then some (c.toNat - 48)
  else if 'a' ≤ c ∧ c ≤ 'f' then some (c.toNat - 87)
  else if 'A' ≤ c ∧ c ≤ 'F' then some (c.toNat - 55)
  else none

/-- The number of four hexadecimal digits. -/
def hexNumber? (a b c d : Char) : Option Nat := do
  let a ← hexDigit? a
  let b ← hexDigit? b
  let c ← hexDigit? c
  let d ← hexDigit? d
  some (((a * 16 + b) * 16 + c) * 16 + d)

/-- The ways to write a character between quotes. Pairs of escapes that stand for one character
together are left out: this library never writes them. -/
inductive Spells (c : Char) : List Char → Prop where
  /-- As it is, unless it is the quote, the backslash or a control character. -/
  | plain (hquote : c ≠ '"') (hslash : c ≠ '\\') (hcontrol : 0x20 ≤ c.toNat) : Spells c [c]
  /-- By a letter. -/
  | short {letter : Char} (h : (c, letter) ∈ shortEscapes) : Spells c ['\\', letter]
  /-- By its number. -/
  | number {x y z w : Char} (h : hexNumber? x y z w = some c.toNat) :
      Spells c ['\\', 'u', x, y, z, w]

/-- The texts of a character. -/
def spelling (c : Char) : Language Char := {w | Spells c w}

/-- The texts of a string. -/
def quoted (s : String) : Language Char := {['"']} * (s.toList.map spelling).prod * {['"']}

/-- Something with a key in front of it. -/
def keyed (key : String) (L : Language Char) : Language Char := padded (quoted key) * {[':']} * L

mutual

/-- **The texts of a value**, from its first character to its last. -/
def Value.spellings : Value → Language Char
  | .null => {"null".toList}
  | .bool true => {"true".toList}
  | .bool false => {"false".toList}
  | .number literal => {w | w = literal ∧ literal ∈ numeral}
  | .string value => quoted value
  | .array [] => {['[']} * blanks * {[']']}
  | .array (v :: vs) =>
    {['[']} * padded v.spellings * Value.itemSpellings vs * {[']']}
  | .object [] => {['{']} * blanks * {['}']}
  | .object ((key, v) :: fields) =>
    {['{']} * keyed key (padded v.spellings) * Value.fieldSpellings fields * {['}']}

/-- The texts of items, each behind a comma. -/
def Value.itemSpellings : List Value → Language Char
  | [] => 1
  | v :: vs => {[',']} * padded v.spellings * Value.itemSpellings vs

/-- The texts of fields, each behind a comma. -/
def Value.fieldSpellings : List (String × Value) → Language Char
  | [] => 1
  | (key, v) :: fields =>
    {[',']} * keyed key (padded v.spellings) * Value.fieldSpellings fields

end

/-- The texts of a value, with blanks around them. -/
def Value.texts (v : Value) : Language Char := padded v.spellings

/-! ### The reader -/

/-- What stands behind blanks. -/
def skipBlanks (cs : List Char) : List Char := cs.dropWhile isBlank

/-- The characters of numbers. -/
def isNumeralPart (c : Char) : Bool :=
  c.isDigit || c == '-' || c == '+' || c == '.' || c == 'e' || c == 'E'

/-- The characters up to the closing quote, and what stands behind it. -/
def readString : List Char → Option (List Char × List Char)
  | [] => none
  | '"' :: cs => some ([], cs)
  | '\\' :: 'u' :: x :: y :: z :: w :: cs => do
    let n ← hexNumber? x y z w
    let (text, rest) ← readString cs
    if n.isValidChar then some (Char.ofNat n :: text, rest) else none
  | '\\' :: letter :: cs => do
    let (c, _) ← shortEscapes.find? fun escape => escape.2 == letter
    let (text, rest) ← readString cs
    some (c :: text, rest)
  | c :: cs => do
    let (text, rest) ← readString cs
    if 0x20 ≤ c.toNat then some (c :: text, rest) else none

/-- A value without parts, and what stands behind it. -/
def readScalar : List Char → Option (Value × List Char)
  | 'n' :: 'u' :: 'l' :: 'l' :: cs => some (.null, cs)
  | 't' :: 'r' :: 'u' :: 'e' :: cs => some (.bool true, cs)
  | 'f' :: 'a' :: 'l' :: 's' :: 'e' :: cs => some (.bool false, cs)
  | '"' :: cs => (readString cs).map fun (text, rest) => (.string (String.ofList text), rest)
  | cs =>
    let literal := cs.takeWhile isNumeralPart
    if literal.isEmpty then none else some (.number literal, cs.dropWhile isNumeralPart)

/-- A key with its colon, and what stands behind the blanks that follow. -/
def readKey : List Char → Option (String × List Char)
  | '"' :: cs => do
    let (key, rest) ← readString cs
    match skipBlanks rest with
    | ':' :: rest => some (String.ofList key, skipBlanks rest)
    | _ => none
  | _ => none

mutual

/-- A value, and what stands behind it. More levels than characters there cannot be. -/
def readValue : (fuel : Nat) → List Char → Option (Value × List Char)
  | 0, _ => none
  | fuel + 1, '[' :: cs =>
    match skipBlanks cs with
    | ']' :: rest => some (.array [], rest)
    | first => do
      let (v, rest) ← readValue fuel first
      let (vs, rest) ← readItems fuel rest
      some (.array (v :: vs), rest)
  | fuel + 1, '{' :: cs =>
    match skipBlanks cs with
    | '}' :: rest => some (.object [], rest)
    | first => do
      let (key, rest) ← readKey first
      let (v, rest) ← readValue fuel rest
      let (fields, rest) ← readFields fuel rest
      some (.object ((key, v) :: fields), rest)
  | _ + 1, cs => readScalar cs

/-- Items behind commas up to the closing bracket, and what stands behind it. -/
def readItems : (fuel : Nat) → List Char → Option (List Value × List Char)
  | 0, _ => none
  | fuel + 1, cs =>
    match skipBlanks cs with
    | ']' :: rest => some ([], rest)
    | ',' :: rest => do
      let (v, rest) ← readValue fuel (skipBlanks rest)
      let (vs, rest) ← readItems fuel rest
      some (v :: vs, rest)
    | _ => none

/-- Fields behind commas up to the closing brace, and what stands behind it. -/
def readFields : (fuel : Nat) → List Char → Option (List (String × Value) × List Char)
  | 0, _ => none
  | fuel + 1, cs =>
    match skipBlanks cs with
    | '}' :: rest => some ([], rest)
    | ',' :: rest => do
      let (key, rest) ← readKey (skipBlanks rest)
      let (v, rest) ← readValue fuel rest
      let (fields, rest) ← readFields fuel rest
      some ((key, v) :: fields, rest)
    | _ => none

end

/-- The value of a JSON text. -/
def read? (text : String) : Option Value := do
  let (v, rest) ← readValue (text.toList.length + 1) (skipBlanks text.toList)
  if (skipBlanks rest).isEmpty then some v else none

/-! ### The worth of numbers -/

/-- Digits behind a point, if there is one, and what stands behind them. -/
def readFraction : List Char → List Char × List Char
  | '.' :: cs => (cs.takeWhile Char.isDigit, cs.dropWhile Char.isDigit)
  | cs => ([], cs)

/-- The power of ten that is written behind a number. -/
def readExponent : List Char → Int
  | [] => 0
  | _ :: '-' :: cs => -(Nat.ofDigitChars 10 cs 0 : Int)
  | _ :: '+' :: cs => Nat.ofDigitChars 10 cs 0
  | _ :: cs => Nat.ofDigitChars 10 cs 0

/-- The double nearest to a number. -/
def nearest (literal : List Char) : Binary64 :=
  let (negative, body) := Numeral.splitSign literal
  let (fraction, back) := readFraction (body.dropWhile Char.isDigit)
  Decimal.toBinary64 negative
    { digits := Nat.ofDigitChars 10 (body.takeWhile Char.isDigit ++ fraction) 0
      exponent := readExponent back - fraction.length }

/-- A point in front of digits, if there are any. -/
def pointed (fraction : List Char) : List Char := if fraction.isEmpty then [] else '.' :: fraction

/-- Digits behind a point are taken off whatever begins with no digit and no point. -/
theorem readFraction_pointed {fraction : List Char} (h : ∀ c ∈ fraction, c.isDigit = true)
    {back : List Char} (hback : ∀ c ∈ back.head?, c.isDigit = false ∧ c ≠ '.') :
    readFraction (pointed fraction ++ back) = (fraction, back) := by
  cases fraction with
  | nil =>
      cases back with
      | nil => rfl
      | cons c cs =>
          have hpoint := (hback c rfl).2
          simp [pointed, readFraction, hpoint]
  | cons c cs =>
      obtain ⟨htake, hdrop⟩ := takeWhile_dropWhile_append h back fun c hc => (hback c hc).1
      exact Prod.ext htake hdrop

/-- **What a number is worth**: its digits as a whole number, times the power of ten that is
written, less one for each digit behind the point. -/
theorem nearest_append (negative : Bool) {whole fraction back : List Char}
    (hwhole : IsDigits whole) (hfraction : ∀ c ∈ fraction, c.isDigit = true)
    (hback : ∀ c ∈ back.head?, c.isDigit = false ∧ c ≠ '.') :
    nearest (Numeral.sign negative ++ (whole ++ (pointed fraction ++ back))) =
      Decimal.toBinary64 negative
        { digits := Nat.ofDigitChars 10 (whole ++ fraction) 0
          exponent := readExponent back - fraction.length } := by
  have hrest : ∀ c ∈ (pointed fraction ++ back).head?, c.isDigit = false := by
    cases fraction with
    | nil => exact fun c hc => (hback c hc).1
    | cons d ds => simp [pointed]
  obtain ⟨htake, hdrop⟩ := takeWhile_dropWhile_append hwhole.2 _ hrest
  have hread := readFraction_pointed hfraction hback
  cases whole with
  | nil => exact absurd rfl hwhole.1
  | cons c cs =>
      have hc := Numeral.isPart_of_isDigit (hwhole.2 c (by simp))
      rw [List.cons_append] at htake hdrop ⊢
      simp only [nearest, Numeral.splitSign_sign negative hc, htake, hdrop, hread]

/-! ### Marks and blanks -/

/-- A mark and something behind it. -/
theorem mem_mark_mul_iff {c : Char} {L : Language Char} {w : List Char} :
    w ∈ {[c]} * L ↔ ∃ cs ∈ L, w = c :: cs := by
  rw [Language.mem_mul]
  constructor
  · rintro ⟨_, rfl, cs, hcs, rfl⟩
    exact ⟨cs, hcs, rfl⟩
  · rintro ⟨cs, hcs, rfl⟩
    exact ⟨[c], rfl, cs, hcs, rfl⟩

/-- A mark and something in front of it. -/
theorem mem_mul_mark_iff {c : Char} {L : Language Char} {w : List Char} :
    w ∈ L * {[c]} ↔ ∃ cs ∈ L, w = cs ++ [c] := by
  rw [Language.mem_mul]
  constructor
  · rintro ⟨cs, hcs, _, rfl, rfl⟩
    exact ⟨cs, hcs, rfl⟩
  · rintro ⟨cs, hcs, rfl⟩
    exact ⟨cs, hcs, [c], rfl, rfl⟩

/-- No blanks are blanks. -/
theorem nil_mem_blanks : [] ∈ blanks := by
  intro c hc
  cases hc

/-- Blanks are skipped. -/
theorem skipBlanks_append {gap : List Char} (h : gap ∈ blanks) (cs : List Char) :
    skipBlanks (gap ++ cs) = skipBlanks cs :=
  List.dropWhile_append_of_pos h

/-- Nothing is skipped in front of what is no blank. -/
theorem skipBlanks_cons {c : Char} (h : isBlank c = false) (cs : List Char) :
    skipBlanks (c :: cs) = c :: cs := by
  simp [skipBlanks, h]

/-- Blanks are skipped up to what is none. -/
theorem skipBlanks_append_cons {gap : List Char} (hgap : gap ∈ blanks) {c : Char}
    (h : isBlank c = false) (cs : List Char) : skipBlanks (gap ++ c :: cs) = c :: cs := by
  rw [skipBlanks_append hgap, skipBlanks_cons h]

/-- A number ends here. -/
def EndsNumeral (rest : List Char) : Prop := ∀ c ∈ rest.head?, isNumeralPart c = false

/-- Numbers end at blanks. -/
theorem endsNumeral_append {gap rest : List Char} (h : gap ∈ blanks) (hrest : EndsNumeral rest) :
    EndsNumeral (gap ++ rest) := by
  cases gap with
  | nil => exact hrest
  | cons c cs =>
      intro d hd
      obtain rfl : c = d := by simpa using hd
      have hblank : isBlank c = true := h c (by simp)
      simp only [isBlank, Bool.or_eq_true, beq_iff_eq] at hblank
      rcases hblank with ((rfl | rfl) | rfl) | rfl <;> rfl

/-! ### Numbers -/

/-- What stands in front of a fraction is digits. -/
theorem isDigits_of_mem_whole {w : List Char} (h : w ∈ whole) : IsDigits w := by
  rcases h with rfl | ⟨hdigits, -⟩
  · exact ⟨by simp, by simp⟩
  · exact hdigits

/-- A fraction is a point and digits, if it is anything. -/
theorem mem_fraction_iff {w : List Char} :
    w ∈ fraction ↔ ∃ ds : List Char, (∀ c ∈ ds, c.isDigit = true) ∧ w = pointed ds := by
  rw [fraction, Language.mem_add, Language.mem_one, Language.mem_mul]
  constructor
  · rintro (rfl | ⟨_, rfl, ds, hds, rfl⟩)
    · exact ⟨[], by simp, rfl⟩
    · exact ⟨ds, hds.2, by simp [pointed, hds.1]⟩
  · rintro ⟨ds, hds, rfl⟩
    cases ds with
    | nil => exact Or.inl rfl
    | cons c cs => exact Or.inr ⟨['.'], rfl, c :: cs, ⟨by simp, hds⟩, rfl⟩

/-- An exponent is its mark, a sign or none, and digits, if it is anything. -/
theorem mem_exponent_iff {w : List Char} :
    w ∈ exponent ↔ w = [] ∨ ∃ mark sign ds, (mark = 'e' ∨ mark = 'E') ∧
      (sign = [] ∨ sign = ['+'] ∨ sign = ['-']) ∧ IsDigits ds ∧ w = mark :: (sign ++ ds) := by
  simp only [exponent, Language.mem_add, Language.mem_one, Language.mem_mul]
  constructor
  · rintro (rfl | ⟨_, ⟨_, hmark, sign, hsign, rfl⟩, ds, hds, rfl⟩)
    · exact Or.inl rfl
    · rw [or_assoc] at hsign
      rcases hmark with hmark | hmark
      · obtain rfl := hmark
        exact Or.inr ⟨'e', sign, ds, Or.inl rfl, hsign, hds, rfl⟩
      · obtain rfl := hmark
        exact Or.inr ⟨'E', sign, ds, Or.inr rfl, hsign, hds, rfl⟩
  · rintro (rfl | ⟨mark, sign, ds, hmark, hsign, hds, rfl⟩)
    · exact Or.inl rfl
    · refine Or.inr ⟨mark :: sign, ⟨[mark], ?_, sign, or_assoc.mpr hsign, rfl⟩, ds, hds, rfl⟩
      exact hmark.imp (fun h => congrArg (fun c => [c]) h) fun h => congrArg (fun c => [c]) h

/-- A number is a sign or none, digits without a zero in front, and maybe a fraction and an
exponent. -/
theorem mem_numeral_iff {w : List Char} :
    w ∈ numeral ↔ ∃ negative front ds back, front ∈ whole ∧ (∀ c ∈ ds, c.isDigit = true) ∧
      back ∈ exponent ∧ w = Numeral.sign negative ++ (front ++ (pointed ds ++ back)) := by
  simp only [numeral, mul_assoc, Language.mem_mul, Language.mem_add, Language.mem_one,
    mem_fraction_iff]
  constructor
  · rintro ⟨sign, hsign, _, ⟨front, hfront, _, ⟨_, ⟨ds, hds, rfl⟩, back, hback, rfl⟩, rfl⟩, rfl⟩
    rcases hsign with rfl | hminus
    · exact ⟨false, front, ds, back, hfront, hds, hback, rfl⟩
    · obtain rfl : sign = ['-'] := hminus
      exact ⟨true, front, ds, back, hfront, hds, hback, rfl⟩
  · rintro ⟨negative, front, ds, back, hfront, hds, hback, rfl⟩
    refine ⟨Numeral.sign negative, ?_, _, ⟨front, hfront, _, ⟨_, ⟨ds, hds, rfl⟩, back, hback, rfl⟩,
      rfl⟩, rfl⟩
    cases negative with
    | true => exact Or.inr rfl
    | false => exact Or.inl rfl

/-- The characters of a number belong into numbers, and the first of them is a digit or the minus
sign. -/
theorem exists_cons_of_mem_numeral {w : List Char} (h : w ∈ numeral) :
    ∃ c cs, w = c :: cs ∧ (c = '-' ∨ c.isDigit = true) ∧ ∀ d ∈ w, isNumeralPart d = true := by
  obtain ⟨negative, front, ds, back, hfront, hds, hback, rfl⟩ := mem_numeral_iff.mp h
  have hdigits := isDigits_of_mem_whole hfront
  have hpart : ∀ d : Char, d.isDigit = true → isNumeralPart d = true := by
    intro d hd
    simp [isNumeralPart, hd]
  have hback' : ∀ d ∈ back, isNumeralPart d = true := by
    rcases mem_exponent_iff.mp hback with rfl | ⟨mark, sign, es, hmark, hsign, hes, rfl⟩
    · simp
    · intro d hd
      rcases List.mem_cons.mp hd with rfl | hd
      · rcases hmark with rfl | rfl <;> rfl
      rcases List.mem_append.mp hd with hd | hd
      · rcases hsign with rfl | rfl | rfl
        · cases hd
        · obtain rfl := List.mem_singleton.mp hd
          rfl
        · obtain rfl := List.mem_singleton.mp hd
          rfl
      · exact hpart d (hes.2 d hd)
  have hpointed : ∀ d ∈ pointed ds, isNumeralPart d = true := by
    intro d hd
    rw [pointed] at hd
    split at hd
    · cases hd
    · rcases List.mem_cons.mp hd with rfl | hd
      · rfl
      · exact hpart d (hds d hd)
  have htail : ∀ d ∈ front ++ (pointed ds ++ back), isNumeralPart d = true := by
    simp only [List.mem_append]
    rintro d (hd | hd | hd)
    · exact hpart d (hdigits.2 d hd)
    · exact hpointed d hd
    · exact hback' d hd
  obtain ⟨c, cs, rfl⟩ := List.exists_cons_of_ne_nil hdigits.1
  cases negative with
  | false => exact ⟨c, _, rfl, Or.inr (hdigits.2 c (by simp)), htail⟩
  | true => exact ⟨'-', _, rfl, Or.inl rfl, List.forall_mem_cons.mpr ⟨rfl, htail⟩⟩

/-- Numbers read back, in front of anything that belongs into no number. -/
theorem readScalar_numeral {w rest : List Char} (h : w ∈ numeral) (hrest : EndsNumeral rest) :
    readScalar (w ++ rest) = some (.number w, rest) := by
  obtain ⟨c, cs, rfl, hc, hparts⟩ := exists_cons_of_mem_numeral h
  obtain ⟨htake, hdrop⟩ := takeWhile_dropWhile_append hparts rest hrest
  rw [List.cons_append] at htake hdrop ⊢
  rw [readScalar.eq_def]
  split
  · simp_all [Char.isDigit]
  · simp_all [Char.isDigit]
  · simp_all [Char.isDigit]
  · simp_all [Char.isDigit]
  · rename_i heq
    rw [htake, hdrop]
    rfl

/-! ### Strings -/

/-- **A character reads back from each of its spellings**, in front of anything. -/
theorem readString_append {c : Char} {w : List Char} (h : Spells c w) (cs : List Char) :
    readString (w ++ cs) = (readString cs).map fun (text, rest) => (c :: text, rest) := by
  cases h with
  | plain hquote hslash hcontrol =>
      rw [List.singleton_append, readString.eq_5 c cs]
      · cases readString cs <;> simp [hcontrol]
      · exact hquote
      · rintro _ _ _ _ _ rfl
        exact absurd rfl hslash
      · rintro _ _ rfl
        exact absurd rfl hslash
  | @short letter hmem =>
      have hfind : shortEscapes.find? (fun escape => escape.2 == letter) = some (c, letter) := by
        simp only [shortEscapes, List.mem_cons, Prod.mk.injEq, List.not_mem_nil, or_false] at hmem
        rcases hmem with h | h | h | h | h | h | h | h <;> obtain ⟨rfl, rfl⟩ := h <;> rfl
      have hletter : letter ≠ 'u' := by
        rintro rfl
        simp [shortEscapes] at hmem
      rw [List.cons_append, List.singleton_append, readString.eq_4]
      · cases readString cs <;> simp [hfind]
      · rintro _ _ _ _ _ rfl
        exact absurd rfl hletter
  | number hnumber =>
      have hvalid : c.toNat.isValidChar := c.valid
      simp only [List.cons_append, List.nil_append, readString, hnumber]
      cases readString cs <;> simp [hvalid, Char.ofNat_toNat]

/-- Characters in a row read back from their spellings, in front of the closing quote. -/
theorem readString_prod {text w : List Char} (h : w ∈ (text.map spelling).prod)
    (rest : List Char) : readString (w ++ '"' :: rest) = some (text, rest) := by
  induction text generalizing w with
  | nil =>
      obtain rfl : w = [] := h
      rfl
  | cons c text ih =>
      obtain ⟨first, hfirst, more, hmore, rfl⟩ := Language.mem_mul.mp h
      rw [List.append_assoc, readString_append hfirst, ih hmore]
      rfl

/-- A string is its opening quote and what reads back behind it. -/
theorem exists_cons_of_mem_quoted {s : String} {w : List Char} (h : w ∈ quoted s) :
    ∃ cs, w = '"' :: cs ∧
      ∀ rest : List Char, readString (cs ++ rest) = some (s.toList, rest) := by
  rw [quoted, mul_assoc, mem_mark_mul_iff] at h
  obtain ⟨_, hrest, rfl⟩ := h
  obtain ⟨body, hbody, rfl⟩ := mem_mul_mark_iff.mp hrest
  refine ⟨body ++ ['"'], rfl, fun rest => ?_⟩
  rw [List.append_assoc]
  exact readString_prod hbody rest

/-! ### Values -/

/-- What is padded has blanks on both sides. -/
theorem mem_padded_iff {L : Language Char} {w : List Char} :
    w ∈ padded L ↔ ∃ a ∈ blanks, ∃ t ∈ L, ∃ b ∈ blanks, w = a ++ (t ++ b) := by
  simp only [padded, mul_assoc, Language.mem_mul]
  constructor
  · rintro ⟨a, ha, _, ⟨t, ht, b, hb, rfl⟩, rfl⟩
    exact ⟨a, ha, t, ht, b, hb, rfl⟩
  · rintro ⟨a, ha, t, ht, b, hb, rfl⟩
    exact ⟨a, ha, _, ⟨t, ht, b, hb, rfl⟩, rfl⟩

/-- A value begins with something that is no blank and does not close an array. -/
theorem exists_cons_of_mem_spellings {v : Value} {w : List Char} (h : w ∈ v.spellings) :
    ∃ c cs, w = c :: cs ∧ isBlank c = false ∧ c ≠ ']' := by
  cases v with
  | null =>
      obtain rfl := h
      exact ⟨'n', _, rfl, rfl, by decide⟩
  | bool value =>
      cases value with
      | true =>
          obtain rfl := h
          exact ⟨'t', _, rfl, rfl, by decide⟩
      | false =>
          obtain rfl := h
          exact ⟨'f', _, rfl, rfl, by decide⟩
  | number literal =>
      obtain ⟨rfl, hnumeral⟩ := h
      obtain ⟨c, cs, rfl, hc, -⟩ := exists_cons_of_mem_numeral hnumeral
      refine ⟨c, cs, rfl, ?_, ?_⟩
      · rw [Bool.eq_false_iff]
        intro hblank
        simp only [isBlank, Bool.or_eq_true, beq_iff_eq] at hblank
        rcases hblank with ((rfl | rfl) | rfl) | rfl <;> simp [Char.isDigit] at hc
      · rintro rfl
        simp [Char.isDigit] at hc
  | string value =>
      obtain ⟨cs, rfl, -⟩ := exists_cons_of_mem_quoted h
      exact ⟨'"', cs, rfl, rfl, by decide⟩
  | array items =>
      have hmark : ∃ L : Language Char, w ∈ {['[']} * L := by
        cases items with
        | nil => exact ⟨_, by simpa only [Value.spellings, mul_assoc] using h⟩
        | cons v vs => exact ⟨_, by simpa only [Value.spellings, mul_assoc] using h⟩
      obtain ⟨L, hL⟩ := hmark
      obtain ⟨cs, -, rfl⟩ := mem_mark_mul_iff.mp hL
      exact ⟨'[', cs, rfl, rfl, by decide⟩
  | object fields =>
      have hmark : ∃ L : Language Char, w ∈ {['{']} * L := by
        cases fields with
        | nil => exact ⟨_, by simpa only [Value.spellings, mul_assoc] using h⟩
        | cons field fields => exact ⟨_, by simpa only [Value.spellings, mul_assoc] using h⟩
      obtain ⟨L, hL⟩ := hmark
      obtain ⟨cs, -, rfl⟩ := mem_mark_mul_iff.mp hL
      exact ⟨'{', cs, rfl, rfl, by decide⟩

/-- A value with blanks around it: they are skipped up to its first character. -/
theorem exists_of_mem_padded {v : Value} {w : List Char} (h : w ∈ padded v.spellings) :
    ∃ t ∈ v.spellings, ∃ gap ∈ blanks, t.length ≤ w.length ∧
      ∀ rest, skipBlanks (w ++ rest) = t ++ (gap ++ rest) := by
  obtain ⟨a, ha, t, ht, b, hb, rfl⟩ := mem_padded_iff.mp h
  obtain ⟨c, cs, rfl, hc, -⟩ := exists_cons_of_mem_spellings ht
  refine ⟨c :: cs, ht, b, hb, ?_, fun rest => ?_⟩
  · simp only [List.length_append]
    omega
  · rw [List.append_assoc, List.append_assoc, List.cons_append, skipBlanks_append_cons ha hc]

/-- A field: a key, which begins with its quote and reads back, and a value. -/
theorem exists_of_mem_field {key : String} {v : Value} {w : List Char}
    (h : w ∈ keyed key (padded v.spellings)) :
    ∃ front, ∃ t ∈ v.spellings, ∃ gap ∈ blanks, t.length ≤ w.length ∧
      (∀ rest, skipBlanks (w ++ rest) = '"' :: (front ++ (t ++ (gap ++ rest)))) ∧
      ∀ rest, readKey ('"' :: (front ++ (t ++ rest))) = some (key, t ++ rest) := by
  simp only [keyed, mul_assoc, Language.mem_mul] at h
  obtain ⟨_, hkey, _, ⟨_, rfl, x, hx, rfl⟩, rfl⟩ := h
  obtain ⟨a, ha, k, hk, b, hb, rfl⟩ := mem_padded_iff.mp hkey
  obtain ⟨a', ha', t, ht, b', hb', rfl⟩ := mem_padded_iff.mp hx
  obtain ⟨cs, rfl, hread⟩ := exists_cons_of_mem_quoted hk
  obtain ⟨c, ds, rfl, hc, -⟩ := exists_cons_of_mem_spellings ht
  refine ⟨cs ++ (b ++ ':' :: a'), c :: ds, ht, b', hb', ?_, fun rest => ?_, fun rest => ?_⟩
  · simp only [List.length_append, List.length_cons]
    omega
  · simpa using skipBlanks_append_cons ha (c := '"') rfl
      (cs ++ (b ++ ':' :: (a' ++ c :: (ds ++ (b' ++ rest)))))
  · rw [List.append_assoc, List.append_assoc, readKey, hread, List.cons_append]
    simp only [Option.bind_eq_bind, Option.bind_some, List.cons_append,
      skipBlanks_append_cons hb (c := ':') rfl, skipBlanks_append_cons ha' hc,
      String.ofList_toList]

/-- Items begin with a comma, if there are any. -/
theorem endsNumeral_items {vs : List Value} {w : List Char} (h : w ∈ Value.itemSpellings vs)
    (rest : List Char) : EndsNumeral (w ++ ']' :: rest) := by
  cases vs with
  | nil =>
      obtain rfl : w = [] := h
      simp [EndsNumeral, isNumeralPart]
  | cons v vs =>
      rw [Value.itemSpellings, mul_assoc, mem_mark_mul_iff] at h
      obtain ⟨cs, -, rfl⟩ := h
      simp [EndsNumeral, isNumeralPart]

/-- Fields begin with a comma, if there are any. -/
theorem endsNumeral_fields {fields : List (String × Value)} {w : List Char}
    (h : w ∈ Value.fieldSpellings fields) (rest : List Char) : EndsNumeral (w ++ '}' :: rest) := by
  cases fields with
  | nil =>
      obtain rfl : w = [] := h
      simp [EndsNumeral, isNumeralPart]
  | cons field fields =>
      rw [Value.fieldSpellings, mul_assoc, mem_mark_mul_iff] at h
      obtain ⟨cs, -, rfl⟩ := h
      simp [EndsNumeral, isNumeralPart]

/-- Values without parts are read by the reader of these. -/
theorem readValue_scalar {c : Char} (hbracket : c ≠ '[') (hbrace : c ≠ '{') (fuel : ℕ)
    (cs : List Char) : readValue (fuel + 1) (c :: cs) = readScalar (c :: cs) := by
  rw [readValue]
  · rintro _ h
    exact hbracket (List.cons.inj h).1
  · rintro _ h
    exact hbrace (List.cons.inj h).1

/-- An array without items. -/
theorem readValue_array_nil {fuel : ℕ} {cs rest : List Char} (h : skipBlanks cs = ']' :: rest) :
    readValue (fuel + 1) ('[' :: cs) = some (.array [], rest) := by
  rw [readValue, h]
  rfl

/-- An array with items, which begins with a value. -/
theorem readValue_array_cons {fuel : ℕ} {cs first back rest : List Char} {v : Value}
    {vs : List Value} (h : skipBlanks cs = first) (hclose : ∀ c ∈ first.head?, c ≠ ']')
    (hv : readValue fuel first = some (v, back)) (hvs : readItems fuel back = some (vs, rest)) :
    readValue (fuel + 1) ('[' :: cs) = some (.array (v :: vs), rest) := by
  rw [readValue, h]
  split
  · exact absurd rfl (hclose ']' rfl)
  · simp [hv, hvs]

/-- An object without fields. -/
theorem readValue_object_nil {fuel : ℕ} {cs rest : List Char} (h : skipBlanks cs = '}' :: rest) :
    readValue (fuel + 1) ('{' :: cs) = some (.object [], rest) := by
  rw [readValue, h]
  rfl

/-- An object with fields, which begins with a key. -/
theorem readValue_object_cons {fuel : ℕ} {cs first back more rest : List Char} {key : String}
    {v : Value} {fields : List (String × Value)} (h : skipBlanks cs = '"' :: first)
    (hkey : readKey ('"' :: first) = some (key, back))
    (hv : readValue fuel back = some (v, more))
    (hfields : readFields fuel more = some (fields, rest)) :
    readValue (fuel + 1) ('{' :: cs) = some (.object ((key, v) :: fields), rest) := by
  rw [readValue, h]
  simp [hkey, hv, hfields]

/-- The end of items. -/
theorem readItems_nil {fuel : ℕ} {cs rest : List Char} (h : skipBlanks cs = ']' :: rest) :
    readItems (fuel + 1) cs = some ([], rest) := by
  rw [readItems, h]
  rfl

/-- One item more. -/
theorem readItems_cons {fuel : ℕ} {cs first back rest : List Char} {v : Value} {vs : List Value}
    (h : skipBlanks cs = ',' :: first) (hv : readValue fuel (skipBlanks first) = some (v, back))
    (hvs : readItems fuel back = some (vs, rest)) :
    readItems (fuel + 1) cs = some (v :: vs, rest) := by
  rw [readItems, h]
  simp [hv, hvs]

/-- The end of fields. -/
theorem readFields_nil {fuel : ℕ} {cs rest : List Char} (h : skipBlanks cs = '}' :: rest) :
    readFields (fuel + 1) cs = some ([], rest) := by
  rw [readFields, h]
  rfl

/-- One field more. -/
theorem readFields_cons {fuel : ℕ} {cs first back more rest : List Char} {key : String}
    {v : Value} {fields : List (String × Value)} (h : skipBlanks cs = ',' :: first)
    (hkey : readKey (skipBlanks first) = some (key, back))
    (hv : readValue fuel back = some (v, more))
    (hfields : readFields fuel more = some (fields, rest)) :
    readFields (fuel + 1) cs = some ((key, v) :: fields, rest) := by
  rw [readFields, h]
  simp [hkey, hv, hfields]

mutual

/-- **A value reads back from each of its spellings**, in front of anything that does not go on
with a number. -/
theorem readValue_append (v : Value) {w rest : List Char} {fuel : ℕ} (h : w ∈ v.spellings)
    (hrest : EndsNumeral rest) (hfuel : w.length < fuel) :
    readValue fuel (w ++ rest) = some (v, rest) := by
  obtain ⟨fuel, rfl⟩ : ∃ n, fuel = n + 1 := ⟨fuel - 1, by omega⟩
  match v with
  | .null =>
      obtain rfl := h
      exact readValue_scalar (by decide) (by decide) fuel _
  | .bool true =>
      obtain rfl := h
      exact readValue_scalar (by decide) (by decide) fuel _
  | .bool false =>
      obtain rfl := h
      exact readValue_scalar (by decide) (by decide) fuel _
  | .number literal =>
      obtain ⟨rfl, hnumeral⟩ := h
      obtain ⟨c, cs, rfl, hc, -⟩ := exists_cons_of_mem_numeral hnumeral
      rw [List.cons_append, readValue_scalar, ← List.cons_append,
        readScalar_numeral hnumeral hrest]
      · rintro rfl
        simp [Char.isDigit] at hc
      · rintro rfl
        simp [Char.isDigit] at hc
  | .string value =>
      obtain ⟨cs, rfl, hread⟩ := exists_cons_of_mem_quoted h
      rw [List.cons_append, readValue_scalar (by decide) (by decide), readScalar, hread]
      simp
  | .array [] =>
      rw [Value.spellings, mul_assoc, mem_mark_mul_iff] at h
      obtain ⟨_, hrow, rfl⟩ := h
      obtain ⟨gap, hgap, rfl⟩ := mem_mul_mark_iff.mp hrow
      refine readValue_array_nil ?_
      simpa using skipBlanks_append_cons hgap (c := ']') rfl rest
  | .array (v :: vs) =>
      simp only [Value.spellings, mul_assoc, Language.mem_mul] at h
      obtain ⟨_, rfl, _, ⟨first, hfirst, _, ⟨items, hitems, _, rfl, rfl⟩, rfl⟩, rfl⟩ := h
      obtain ⟨t, ht, gap, hgap, hle, hskip⟩ := exists_of_mem_padded hfirst
      simp only [List.length_append, List.length_singleton] at hfuel
      have hends := endsNumeral_append hgap (endsNumeral_items hitems rest)
      have hopen := hskip (items ++ ']' :: rest)
      refine readValue_array_cons (by simpa using hopen) ?_ (readValue_append v ht hends (by omega))
        (readItems_append vs hitems hgap rest (by omega))
      obtain ⟨c, cs, rfl, -, hc⟩ := exists_cons_of_mem_spellings ht
      simpa using hc
  | .object [] =>
      rw [Value.spellings, mul_assoc, mem_mark_mul_iff] at h
      obtain ⟨_, hrow, rfl⟩ := h
      obtain ⟨gap, hgap, rfl⟩ := mem_mul_mark_iff.mp hrow
      refine readValue_object_nil ?_
      simpa using skipBlanks_append_cons hgap (c := '}') rfl rest
  | .object ((key, v) :: fields) =>
      simp only [Value.spellings] at h
      obtain ⟨_, ⟨_, ⟨_, rfl, field, hfield, rfl⟩, more, hmore, rfl⟩, _, rfl, rfl⟩ := h
      obtain ⟨front, t, ht, gap, hgap, hle, hskip, hkey⟩ := exists_of_mem_field hfield
      simp only [List.length_append, List.length_singleton] at hfuel
      have hends := endsNumeral_append hgap (endsNumeral_fields hmore rest)
      refine readValue_object_cons ?_ (hkey _) (readValue_append v ht hends (by omega))
        (readFields_append fields hmore hgap rest (by omega))
      simpa using hskip (more ++ '}' :: rest)

/-- Items read back, behind blanks and in front of the closing bracket. -/
theorem readItems_append (vs : List Value) {w gap : List Char} (h : w ∈ Value.itemSpellings vs)
    (hgap : gap ∈ blanks) (rest : List Char) {fuel : ℕ} (hfuel : w.length < fuel) :
    readItems fuel (gap ++ (w ++ ']' :: rest)) = some (vs, rest) := by
  obtain ⟨fuel, rfl⟩ : ∃ n, fuel = n + 1 := ⟨fuel - 1, by omega⟩
  match vs with
  | [] =>
      obtain rfl : w = [] := h
      exact readItems_nil (skipBlanks_append_cons hgap rfl rest)
  | v :: vs =>
      simp only [Value.itemSpellings, mul_assoc, Language.mem_mul] at h
      obtain ⟨_, rfl, _, ⟨first, hfirst, items, hitems, rfl⟩, rfl⟩ := h
      obtain ⟨t, ht, gap', hgap', hle, hskip⟩ := exists_of_mem_padded hfirst
      simp only [List.length_append, List.length_singleton] at hfuel
      have hends := endsNumeral_append hgap' (endsNumeral_items hitems rest)
      have hcomma := skipBlanks_append_cons hgap (c := ',') rfl (first ++ (items ++ ']' :: rest))
      have hopen := hskip (items ++ ']' :: rest)
      refine readItems_cons (by simpa using hcomma) ?_ (readItems_append vs hitems hgap' rest
        (by omega))
      rw [hopen]
      exact readValue_append v ht hends (by omega)

/-- Fields read back, behind blanks and in front of the closing brace. -/
theorem readFields_append (fields : List (String × Value)) {w gap : List Char}
    (h : w ∈ Value.fieldSpellings fields) (hgap : gap ∈ blanks) (rest : List Char) {fuel : ℕ}
    (hfuel : w.length < fuel) :
    readFields fuel (gap ++ (w ++ '}' :: rest)) = some (fields, rest) := by
  obtain ⟨fuel, rfl⟩ : ∃ n, fuel = n + 1 := ⟨fuel - 1, by omega⟩
  match fields with
  | [] =>
      obtain rfl : w = [] := h
      exact readFields_nil (skipBlanks_append_cons hgap rfl rest)
  | (key, v) :: fields =>
      simp only [Value.fieldSpellings] at h
      obtain ⟨_, ⟨_, rfl, field, hfield, rfl⟩, more, hmore, rfl⟩ := h
      obtain ⟨front, t, ht, gap', hgap', hle, hskip, hkey⟩ := exists_of_mem_field hfield
      simp only [List.length_append, List.length_singleton] at hfuel
      have hends := endsNumeral_append hgap' (endsNumeral_fields hmore rest)
      have hcomma := skipBlanks_append_cons hgap (c := ',') rfl (field ++ (more ++ '}' :: rest))
      have hopen := hskip (more ++ '}' :: rest)
      refine readFields_cons (by simpa using hcomma) ?_ (readValue_append v ht hends (by omega))
        (readFields_append fields hmore hgap' rest (by omega))
      rw [hopen]
      exact hkey _

end

/-- **Texts are read as the value they are texts of.** -/
theorem read?_of_mem_texts {v : Value} {text : String} (h : text.toList ∈ v.texts) :
    read? text = some v := by
  obtain ⟨t, ht, gap, hgap, hle, hskip⟩ := exists_of_mem_padded h
  have hends : EndsNumeral (gap ++ []) := endsNumeral_append hgap (by simp [EndsNumeral])
  have hread := readValue_append v ht hends (Nat.lt_succ_of_le hle)
  have hblank : skipBlanks (gap ++ []) = [] := skipBlanks_append hgap []
  have htext : skipBlanks text.toList = t ++ (gap ++ []) := by simpa using hskip []
  rw [List.append_nil] at hread hblank htext
  rw [read?, htext, hread]
  simp [hblank]

end TagTemplate.Json
