import TagTemplate.Proofs.Element

/-!
# Lexemes on their own

What follows a lexeme in its source says where the lexeme ends, and nothing more. Cut out and read
on its own, in the mode it was read in, every lexeme is found again, whole and with the same token
(`step_chars`). The same holds in a tag in front of any input that ends the lexeme, which is one
that begins with a blank or with the character which has ended it before (`scanTag_chars_append`).

Each scanner has its part in this. A run of text ends in front of an opener and not within one, a
string brings its closing quote along, and names, numbers and operators are read back in front of
the end of the input as they are in front of whatever cannot go on in them.
-/

namespace TagTemplate

/-- Literal text that begins with a character of no meaning of its own. -/
theorem Escaped.scan_cons_of_plain {c : Char} {cs : List Char} (hback : c ≠ '\\')
    (hopen : ∀ r, c = '{' → cs ≠ '$' :: r) :
    scan (c :: cs) = scan.extend [c] c (scan cs) := by
  rw [scan.eq_def]
  split <;> simp_all

/-- Literal text is read again from its own characters. -/
theorem Escaped.scan_chars {cs : List Char} {s : Scanned} (h : scan cs = .ok s) :
    scan s.chars = .ok ⟨s.value, s.chars, []⟩ := by
  fun_induction scan cs generalizing s with
  | case1 | case2 => cases h; rfl
  | case3 cs ih | case4 cs ih =>
      obtain ⟨s', hs, rfl⟩ := exists_of_extend_eq_ok h
      simp only [Scanned.extend, List.cons_append, List.nil_append, scan, ih hs, scan.extend]
  | case5 => cases h
  | case6 c cs hopen hback hbrace hescape ih =>
      obtain ⟨s', hs, rfl⟩ := exists_of_extend_eq_ok h
      have hplain : ∀ r, c = '{' → s'.chars ≠ '$' :: r := by
        intro r hc hchars
        have hcs := chars_append_rest hs
        rw [hchars] at hcs
        exact hopen (r ++ s'.rest) hc hcs.symm
      simp only [Scanned.extend, List.singleton_append, scan_cons_of_plain hescape hplain, ih hs,
        scan.extend]

/-- The body of a string that begins with a character of no meaning of its own. -/
theorem Quoted.scan_cons_of_plain {c : Char} (cs : List Char) (hquote : c ≠ '"')
    (hback : c ≠ '\\') (hline : c ≠ '\n') (hbrace : c ≠ '{') :
    scan (c :: cs) = (scan cs).map (Scanned.extend [c] c) := by
  rw [scan.eq_def]
  split <;> simp_all

/-- A string is read again from its own characters, whatever stands behind them. -/
theorem Quoted.scan_chars_append {cs : List Char} {s : Scanned} (h : scan cs = .ok s)
    (rest : List Char) : scan (s.chars ++ rest) = .ok ⟨s.value, s.chars, rest⟩ := by
  fun_induction scan cs generalizing s with
  | case1 | case3 | case4 | case6 | case7 => cases h
  | case2 => cases h; rfl
  | case5 e cs c he ih =>
      cases hs : scan cs with
      | error _ => simp [hs, Except.map] at h
      | ok s' =>
          simp only [hs, Except.map, Except.ok.injEq] at h
          subst h
          simp [Scanned.extend, scan, he, ih hs, Except.map]
  | case8 c cs hquote hlast hescape hline hbrace ih =>
      have hback : c ≠ '\\' := by
        intro hc
        cases cs with
        | nil => exact hlast hc rfl
        | cons e cs => exact hescape e cs hc rfl
      cases hs : scan cs with
      | error _ => simp [hs, Except.map] at h
      | ok s' =>
          simp only [hs, Except.map, Except.ok.injEq] at h
          subst h
          simp only [Scanned.extend, List.cons_append, List.nil_append,
            scan_cons_of_plain _ hquote hback hline hbrace, ih hs, Except.map]

/-! ### Where lexemes end -/

/-- Tokens that bring their own end along: the marks, the equals sign and strings. The others go on
as long as they can. -/
def Token.endsItself : Token → Bool
  | .tagOpen | .tagClose | .echo | .string _ => true
  | _ => false

/-- An input that ends a lexeme of a tag where another one has ended it: there is nothing, or a
blank, or the same character as there. -/
def EndsLike (rest rest' : List Char) : Prop :=
  ∀ d ∈ rest'.head?, d ∈ rest.head? ∨ isBlank d = true

/-- Blanks do not go on in a name. -/
theorem isNamePart_of_isBlank {c : Char} (h : isBlank c = true) : isNamePart c = false := by
  simp only [isBlank, Bool.or_eq_true, beq_iff_eq] at h
  rcases h with ((rfl | rfl) | rfl) | rfl <;> rfl

/-- Blanks do not go on in a number. -/
theorem Numeral.isPart_of_isBlank {c : Char} (h : isBlank c = true) : isPart c = false := by
  simp only [isBlank, Bool.or_eq_true, beq_iff_eq] at h
  rcases h with ((rfl | rfl) | rfl) | rfl <;> rfl

/-- What has ended a lexeme of a class of characters, and blanks, do not go on in it. -/
theorem EndsLike.not_part {rest rest' : List Char} (h : EndsLike rest rest') {part : Char → Bool}
    (hblank : ∀ c, isBlank c = true → part c = false) (hrest : ∀ c ∈ rest.head?, part c = false) :
    ∀ c ∈ rest'.head?, part c = false := by
  intro c hc
  rcases h c hc with hsame | hc
  · exact hrest c hsame
  · exact hblank c hc

/-- Behind a stretch of characters there is none that goes on in it. -/
theorem eq_false_of_mem_head?_dropWhile {p : Char → Bool} {cs : List Char} {c : Char}
    (h : c ∈ (cs.dropWhile p).head?) : p c = false := by
  have hnot := List.head?_dropWhile_not p cs
  rwa [Option.mem_def.mp h] at hnot

/-- Behind a name there is nothing that goes on in it. -/
theorem Identifier.isNamePart_of_scan? {cs rest : List Char} {name : Identifier}
    (h : Identifier.scan? cs = some (name, rest)) : ∀ c ∈ rest.head?, isNamePart c = false := by
  cases cs with
  | nil => cases h
  | cons c cs =>
      simp only [Identifier.scan?] at h
      split at h
      · cases h
        exact fun c hc => eq_false_of_mem_head?_dropWhile hc
      · cases h

/-- Behind a number there is nothing that goes on in it. -/
theorem Numeral.isPart_of_scan? {cs lexeme rest : List Char}
    (h : Numeral.scan? cs = some (lexeme, rest)) : ∀ c ∈ rest.head?, Numeral.isPart c = false := by
  simp only [Numeral.scan?] at h
  split at h
  · cases h
  · cases h
    exact fun c hc => eq_false_of_mem_head?_dropWhile hc

/-- Behind a minus sign that begins no number there is nothing that could be one. -/
theorem Numeral.isPart_of_minus {cs : List Char} (h : Numeral.scan? ('-' :: cs) = none) :
    ∀ c ∈ cs.head?, Numeral.isPart c = false := by
  intro c hc
  obtain ⟨cs, rfl⟩ := List.head?_eq_some_iff.mp hc
  simpa [Numeral.scan?, Numeral.splitSign] using h

/-- **What is found in a tag is found again** in its own characters, in front of anything that
ends it. Where it brings its own end along it does not matter what follows. -/
theorem scanTag_chars_append {cs rest : List Char} {f : Found} (h : scanTag cs = .ok f)
    (hrest : f.token.endsItself = true ∨ EndsLike f.rest rest) :
    scanTag (f.chars ++ rest) = .ok ⟨f.token, f.chars, rest⟩ := by
  cases scansTag_of_eq h with
  | close | echo => rfl
  | string hs => simp [scanTag, Quoted.scan_chars_append hs, Except.map]
  | @function _ rest' n hname =>
      have hends : EndsLike rest' rest := hrest.resolve_left (by simp [Token.endsItself])
      have hscan := n.scan?_append rest (hends.not_part (fun _ => isNamePart_of_isBlank)
        (Identifier.isNamePart_of_scan? hname))
      simp [scanTag, hscan]
  | @name _ rest' n hname =>
      have hends : EndsLike rest' rest := hrest.resolve_left (by simp [Token.endsItself])
      exact scanTag_name_append n (hends.not_part (fun _ => isNamePart_of_isBlank)
        (Identifier.isNamePart_of_scan? hname))
  | @number _ lexeme rest' v hnumber hread =>
      have hends : EndsLike rest' rest :=
        hrest.resolve_left (by cases v <;> simp [Numeral.token, Token.endsItself])
      exact scanTag_of_read? hread (hends.not_part (fun _ => Numeral.isPart_of_isBlank)
        (Numeral.isPart_of_scan? hnumber))
  | @operator c cs op hnumber hop =>
      have hends : EndsLike cs rest := hrest.resolve_left (by simp [Token.endsItself])
      obtain rfl := Operator.symbol_of_ofChar? hop
      refine scanTag_operator_append fun hminus => ?_
      subst hminus
      exact hends.not_part (fun _ => Numeral.isPart_of_isBlank) (Numeral.isPart_of_minus hnumber)

/-- **Lexemes are found again on their own**, whole and as the same token. -/
theorem step_chars {mode mode' : Mode} {cs rest : List Char} {l : Lexeme}
    (h : step mode cs = .token l mode' rest) :
    step mode l.chars = .token ⟨[], l.chars, l.token⟩ mode' [] := by
  cases mode with
  | tag =>
      obtain ⟨f, hf, rfl, rfl, rfl⟩ := exists_found_of_step h
      have hgap : ∀ c ∈ ([] : List Char), isBlank c = true := by simp
      have hfound := scanTag_chars_append hf (Or.inr (by simp [EndsLike] : EndsLike f.rest []))
      rw [List.append_nil] at hfound
      exact step_tag_of_scanTag hgap hfound
  | text =>
      by_cases hends : Escaped.Ends cs
      · rcases hends with rfl | ⟨r, rfl⟩
        · cases h
        · cases h; rfl
      · obtain ⟨hne, happend⟩ := step_eq_append h
        cases hscan : Escaped.scan cs with
        | error passed =>
            rw [step_of_scan_eq_error hends hscan] at h
            cases h
        | ok s =>
            rw [step_of_scan_eq_ok hends hscan] at h
            cases h
            -- the characters do not begin like a tag, or the source would
            have hnot : ¬ Escaped.Ends s.chars := by
              rintro (hnil | ⟨r, hopen⟩)
              · exact hne hnil
              · refine hends (Or.inr ⟨r ++ s.rest, ?_⟩)
                rw [← happend, hopen]
                rfl
            exact step_of_scan_eq_ok hnot (Escaped.scan_chars hscan)

end TagTemplate
