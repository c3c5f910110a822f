import TagTemplate.Document
import TagTemplate.Piece
import TagTemplate.Proofs.Lexing
import TagTemplate.Proofs.Literal
import Mathlib

/-!
# Elements of tags read back

An element is written with a blank behind it, always: between two elements, and in front of the
closing mark. No lexeme of a tag goes on over a blank except a string, which brings its own end
along, so each element is read back as one token, whatever stands around it
(`scanTag_text_append`). Elements in a row are then one lexeme each (`passage_elementsText`), and
the tokens of a tag are those of its elements and the closing mark, behind which the lexer is in
text mode in front of what follows the tag (`steps_elementsText`).
-/

namespace TagTemplate

/-- The token that stands for an element. -/
def Element.token : Element → Token
  | .integer value => .integer value
  | .double value => .double value
  | .string value => .string value
  | .var name => .name name
  | .function name => .function name
  | .operator op => .operator op

/-- An element whose doubles, if it is one, are finite. -/
def Element.IsFinite : Element → Prop
  | .double value => value.isFinite = true
  | _ => True

/-- The token of an element stands for that element and no other. -/
theorem Token.element?_eq_some_iff {t : Token} {e : Element} :
    t.element? = some e ↔ t = e.token := by
  cases t <;> cases e <;> simp [Token.element?, Element.token, eq_comm]

/-! ### Names and operators -/

/-- Names are known from their text. -/
theorem Identifier.ofString?_text (name : Identifier) : ofString? name.text = some name := by
  simp [ofString?, name.isName_text]

/-- Operators are known from their character. -/
theorem Operator.ofChar?_symbol (op : Operator) : ofChar? op.symbol = some op := by
  cases op <;> rfl

/-- An operator is written as the character it was read from. -/
theorem Operator.symbol_of_ofChar? {c : Char} {op : Operator} (h : ofChar? c = some op) :
    op.symbol = c := by
  simpa using List.find?_some h

/-! ### Characters by their numbers -/

/-- The digits. -/
theorem isDigit_iff {c : Char} : c.isDigit = true ↔ 48 ≤ c.toNat ∧ c.toNat ≤ 57 := by
  simp [Char.isDigit, UInt32.le_iff_toNat_le, ← Char.toNat_val]

/-- The letters. -/
theorem isAlpha_iff {c : Char} : c.isAlpha = true ↔
    (65 ≤ c.toNat ∧ c.toNat ≤ 90) ∨ (97 ≤ c.toNat ∧ c.toNat ≤ 122) := by
  simp [Char.isAlpha, Char.isUpper, Char.isLower, UInt32.le_iff_toNat_le, ← Char.toNat_val]

/-! ### Strings -/

namespace Quoted

/-- One escaped character in front of the rest of a string. -/
theorem scan_escapeChar_append (c : Char) (rest : List Char) :
    scan (escapeChar c ++ rest) = (scan rest).map (Scanned.extend (escapeChar c) c) := by
  rw [escapeChar.eq_def]
  split
  iterate 6 rfl
  rename_i hback hquote hbrace hline htab hreturn
  rw [List.singleton_append, scan.eq_def]
  split <;> simp_all

/-- **A quoted string is read back** up to its closing quote, whatever follows it. -/
theorem scan_escape_append (text rest : List Char) :
    scan (text.flatMap escapeChar ++ '"' :: rest) =
      .ok ⟨text, text.flatMap escapeChar ++ ['"'], rest⟩ := by
  induction text with
  | nil => rfl
  | cons c text ih =>
      rw [List.flatMap_cons, List.append_assoc, scan_escapeChar_append, ih]
      simp [Except.map, Scanned.extend]

end Quoted

/-! ### Single lexemes -/

/-- Characters that begin no mark of their own begin a name, a number or an operator. -/
theorem scanTag_cons {c : Char} (cs : List Char) (hclose : c ≠ '$') (hecho : c ≠ '=')
    (hquote : c ≠ '"') (hat : c ≠ '@') : scanTag (c :: cs) = scanWord c cs := by
  rw [scanTag.eq_def]
  split <;> simp_all

/-- A name is scanned up to the first character that cannot go on in it. -/
theorem Identifier.scan?_append (name : Identifier) (rest : List Char)
    (hrest : ∀ c ∈ rest.head?, isNamePart c = false) :
    Identifier.scan? (name.text.toList ++ rest) = some (name, rest) := by
  obtain ⟨text, hname⟩ := name
  simp only at *
  cases hcs : text.toList with
  | nil => simp [hcs, isName] at hname
  | cons c cs =>
      simp only [hcs, isName, Bool.and_eq_true, List.all_eq_true] at hname
      obtain ⟨hstart, hall⟩ := hname
      have htake := takeWhile_dropWhile_append hall rest hrest
      have htext : String.ofList (c :: cs) = text := by
        rw [← hcs, String.ofList_toList]
      simp only [List.cons_append, Identifier.scan?, hstart, htake]
      simp [htext]

/-- A name in front of something that cannot go on in it. -/
theorem scanTag_name_append (name : Identifier) {rest : List Char}
    (hrest : ∀ c ∈ rest.head?, isNamePart c = false) :
    scanTag (name.text.toList ++ rest) = .ok ⟨.name name, name.text.toList, rest⟩ := by
  have hscan := name.scan?_append rest hrest
  have hname := name.isName_text
  cases hcs : name.text.toList with
  | nil => simp [hcs, isName] at hname
  | cons c cs =>
      simp only [hcs, isName, Bool.and_eq_true] at hname
      rw [hcs, List.cons_append] at hscan
      rw [List.cons_append, scanTag_cons]
      · simp only [scanWord, hscan, hcs]
      all_goals
        rintro rfl
        exact absurd hname.1 (by decide)

/-- Neither a digit nor a point begins a name. -/
theorem isNameStart_of_isPart {c : Char} (h : Numeral.isPart c = true) : isNameStart c = false := by
  simp only [Numeral.isPart, Bool.or_eq_true, beq_iff_eq] at h
  rcases h with hdigit | rfl
  · rw [isDigit_iff] at hdigit
    rw [Bool.eq_false_iff, isNameStart, Ne, isAlpha_iff]
    omega
  · rfl

/-- Digits and points in front of something that cannot go on in them are a number, or a malformed
one. -/
theorem scanTag_number_append (negative : Bool) {c : Char} {cs rest : List Char}
    (hall : ∀ d ∈ c :: cs, Numeral.isPart d = true)
    (hrest : ∀ d ∈ rest.head?, Numeral.isPart d = false) :
    scanTag (Numeral.sign negative ++ c :: cs ++ rest) =
      (Numeral.read? (Numeral.sign negative ++ c :: cs)).elim (.error .malformedNumber)
        fun v => .ok ⟨v.token, Numeral.sign negative ++ c :: cs, rest⟩ := by
  have hscan := Numeral.scan?_sign_append negative hall hrest
  obtain ⟨d, ds, hds, hd⟩ : ∃ d ds, Numeral.sign negative ++ c :: cs = d :: ds ∧
      (d = '-' ∨ Numeral.isPart d = true) := by
    cases negative with
    | true => exact ⟨'-', c :: cs, rfl, Or.inl rfl⟩
    | false => exact ⟨c, cs, rfl, Or.inr (hall c (by simp))⟩
  have hstart : isNameStart d = false := by
    rcases hd with rfl | hd
    · rfl
    · exact isNameStart_of_isPart hd
  rw [hds, List.cons_append] at hscan ⊢
  rw [scanTag_cons]
  · have hname : Identifier.scan? (d :: (ds ++ rest)) = none := by
      simp [Identifier.scan?, hstart]
    simp only [scanWord, hname, hscan]
    cases Numeral.read? (d :: ds) <;> rfl
  all_goals
    rintro rfl
    revert hd
    decide

/-- A number literal in front of something that cannot go on in it. -/
theorem scanTag_of_read? {lexeme : List Char} {v : Numeral} (h : Numeral.read? lexeme = some v)
    {rest : List Char} (hrest : ∀ c ∈ rest.head?, Numeral.isPart c = false) :
    scanTag (lexeme ++ rest) = .ok ⟨v.token, lexeme, rest⟩ := by
  obtain ⟨negative, c, cs, rfl, -, hall⟩ := Numeral.exists_sign_of_read? h
  rw [scanTag_number_append negative hall hrest, h]
  rfl

/-- An operator in front of something that it is not the sign of. -/
theorem scanTag_operator_append {op : Operator} {rest : List Char}
    (hrest : op = .subtract → ∀ d ∈ rest.head?, Numeral.isPart d = false) :
    scanTag (op.symbol :: rest) = .ok ⟨.operator op, [op.symbol], rest⟩ := by
  cases op with
  | add | multiply | divide | power => rfl
  | subtract =>
      cases rest with
      | nil => rfl
      | cons d rest =>
          have hd := hrest rfl d rfl
          have hnumber : Numeral.scan? ('-' :: d :: rest) = none := by
            simp [Numeral.scan?, Numeral.splitSign, hd]
          have hname : Identifier.scan? ('-' :: d :: rest) = none := rfl
          rw [Operator.symbol, scanTag_cons _ (by decide) (by decide) (by decide) (by decide),
            scanWord, hname, hnumber]
          rfl

/-- **Elements read back.** An element in front of a blank is one lexeme, and the lexeme of its
own token. -/
theorem scanTag_text_append {e : Element} (h : e.IsFinite) (rest : List Char) :
    scanTag (e.text.toList ++ ' ' :: rest) = .ok ⟨e.token, e.text.toList, ' ' :: rest⟩ := by
  cases e with
  | integer value => exact scanTag_of_read? (Numeral.read?_integer value) (by simp [Numeral.isPart])
  | double value => exact scanTag_of_read? (Numeral.read?_double h) (by simp [Numeral.isPart])
  | string value =>
      have hscan := Quoted.scan_escape_append value.toList (' ' :: rest)
      simp [Element.text, Quoted.quote, Element.token, scanTag, hscan, Except.map]
  | var name => exact scanTag_name_append name (by simp [isNamePart])
  | function name =>
      have hscan := name.scan?_append (' ' :: rest) (by simp [isNamePart])
      simp [Element.text, Element.token, scanTag, hscan]
  | operator op =>
      have hrest : op = .subtract → ∀ d ∈ (' ' :: rest).head?, Numeral.isPart d = false :=
        fun _ => by simp [Numeral.isPart]
      simpa [Element.text, Operator.text, Element.token] using scanTag_operator_append hrest

/-! ### Steps in a tag -/

/-- No lexeme of a tag begins with a blank. -/
theorem isBlank_of_scanTag {c : Char} {cs : List Char} {f : Found}
    (h : scanTag (c :: cs) = .ok f) : isBlank c = false := by
  rw [Bool.eq_false_iff]
  intro hblank
  simp only [isBlank, Bool.or_eq_true, beq_iff_eq] at hblank
  rcases hblank with ((rfl | rfl) | rfl) | rfl <;> cases h

/-- A step in a tag skips blanks and takes the lexeme behind them. -/
theorem step_tag_of_scanTag {gap cs : List Char} {f : Found} (hgap : ∀ c ∈ gap, isBlank c = true)
    (h : scanTag cs = .ok f) :
    step .tag (gap ++ cs) = .token ⟨gap, f.chars, f.token⟩ (modeAfter f.token) f.rest := by
  have hhead : ∀ c ∈ cs.head?, isBlank c = false := by
    intro c hc
    obtain ⟨cs, rfl⟩ := List.head?_eq_some_iff.mp hc
    exact isBlank_of_scanTag h
  have hsplit := takeWhile_dropWhile_append hgap cs hhead
  simp only [step, tagStep, hsplit, h]

/-- A step in a tag skips blanks and is refused behind them. -/
theorem step_tag_of_scanTag_eq_error {gap cs : List Char} {fault : LexFault}
    (hgap : ∀ c ∈ gap, isBlank c = true) (hhead : ∀ c ∈ cs.head?, isBlank c = false)
    (h : scanTag cs = .error fault) : step .tag (gap ++ cs) = .fault gap fault := by
  have hsplit := takeWhile_dropWhile_append hgap cs hhead
  simp only [step, tagStep, hsplit, h]

/-- The closing mark, behind blanks. -/
theorem steps_tagClose {gap : List Char} (hgap : ∀ c ∈ gap, isBlank c = true)
    (rest : List Char) : Steps .tag (gap ++ '$' :: '}' :: rest) [.tagClose] .text rest := by
  have hscan : scanTag ('$' :: '}' :: rest) = .ok ⟨.tagClose, ['$', '}'], rest⟩ := rfl
  exact Steps.token (step_tag_of_scanTag hgap hscan) Steps.refl

/-- The lexeme of an element: the element as it is written, behind a gap. -/
def Element.lexeme (gap : List Char) (e : Element) : Lexeme := ⟨gap, e.text.toList, e.token⟩

/-- The tokens of such lexemes are those of the elements. -/
theorem Element.map_token_lexeme (gap : List Char) (es : List Element) :
    (es.map (Element.lexeme gap)).map Lexeme.token = es.map Element.token := by
  rw [List.map_map]
  rfl

/-- An element, behind blanks and in front of one, is one lexeme. -/
theorem step_text {e : Element} (h : e.IsFinite) {gap : List Char}
    (hgap : ∀ c ∈ gap, isBlank c = true) (rest : List Char) :
    step .tag (gap ++ (e.text.toList ++ ' ' :: rest)) =
      .token (e.lexeme gap) .tag (' ' :: rest) := by
  have hmode : modeAfter e.token = .tag := by cases e <;> rfl
  rw [step_tag_of_scanTag hgap (scanTag_text_append h rest), hmode]
  rfl

/-- **Elements in a tag**, behind blanks and in front of one: there is one lexeme for each of them.
The induction is on the elements; the blanks in front of the first are general, since every other
one has a blank there. -/
theorem passage_elementsText {e : Element} {es : List Element} (h : ∀ e' ∈ e :: es, e'.IsFinite)
    {gap : List Char} (hgap : ∀ c ∈ gap, isBlank c = true) (rest : List Char) :
    Passage .tag (gap ++ ((Node.elementsText (e :: es)).toList ++ ' ' :: rest))
      (e.lexeme gap :: es.map (Element.lexeme [' '])) .tag (' ' :: rest) := by
  have hblank : ∀ c ∈ [' '], isBlank c = true := by simp [isBlank]
  have he : e.IsFinite := h e (by simp)
  induction es generalizing e gap with
  | nil =>
      have hpassage := Passage.step (step_text he hgap rest) Passage.refl
      simpa [Node.elementsText] using hpassage
  | cons e' es ih =>
      have hes : ∀ e'' ∈ e' :: es, e''.IsFinite := fun e'' he'' => h e'' (by simp [he''])
      have hpassage := Passage.step
        (step_text he hgap ((Node.elementsText (e' :: es)).toList ++ ' ' :: rest))
        (ih hes hblank (hes e' (by simp)))
      simpa [Node.elementsText] using hpassage

/-- **The contents of a tag read back**: one token for each element, the closing mark, and then
text mode in front of what follows. -/
theorem steps_elementsText {es : List Element} (h : ∀ e ∈ es, e.IsFinite) {gap : List Char}
    (hgap : ∀ c ∈ gap, isBlank c = true) (rest : List Char) :
    Steps .tag (gap ++ ((Node.elementsText es).toList ++ ' ' :: '$' :: '}' :: rest))
      (es.map Element.token ++ [.tagClose]) .text rest := by
  have hblank : ∀ c ∈ [' '], isBlank c = true := by simp [isBlank]
  cases es with
  | nil =>
      have hgap' : ∀ c ∈ gap ++ [' '], isBlank c = true := by
        intro c hc
        rcases List.mem_append.mp hc with hc | hc
        · exact hgap c hc
        · exact hblank c hc
      simpa [Node.elementsText] using steps_tagClose hgap' rest
  | cons e es =>
      have hsteps := (passage_elementsText h hgap ('$' :: '}' :: rest)).steps
      have hrun := hsteps.trans (steps_tagClose hblank rest)
      rw [List.map_cons, Element.map_token_lexeme] at hrun
      simpa [Element.lexeme] using hrun

end TagTemplate
