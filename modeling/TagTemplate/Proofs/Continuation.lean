import TagTemplate.Proofs.Concatenation
import TagTemplate.Proofs.Lockstep

/-!
# Errors that nothing can mend

Some errors may go away when more is written behind the source: a name may become the name of a tag,
a number may be completed, an open loop may be closed. Others are definite. Elements that do not
fit their tag, an end without its loop, an equals sign among elements, a line feed or a brace in a
string are there whatever follows, and the error of the longer source is the same to the last
letter.

Two parsers are looked at side by side, one of a source and one of the same source with more behind
it. As long as tokens are the same they do the same (`Parser.Ahead`). The token at the end of the
first source may be another one in the second, but what makes an error definite is never found
there: closing marks and equals signs bring their own end along, and so does what is wrong with a
string. A parser that has come to the end of its source without such an error does not get one
(`Parser.AtEnd`).

## Main results

* `step_append_of_isInString`: faults in strings, in front of more input.
* `Parser.Ahead.turn_more`, `Parser.Ahead.turn_done`: one call for a token, in both runs.
* `Parser.Asks.ahead_or_atEnd`: the two runs side by side.
* `parse_append_of_isDefinite`: definite errors stand whatever follows.
-/

namespace TagTemplate

/-- Faults that are met inside of a string, where nothing behind can put them right. -/
def LexFault.isInString : LexFault → Bool
  | .newlineInString | .braceInString => true
  | _ => false

/-- The classes of errors that stand whatever follows the source. -/
def ParseErrorKind.isDefinite : ParseErrorKind → Bool
  | .invalidArguments | .unmatchedEnd | .unexpectedToken => true
  | .lexical fault => fault.isInString
  | _ => false

/-! ### Faults in strings -/

/-- What is wrong with a string is so whatever follows, unless it is only that the string has no
end. -/
theorem Quoted.scan_append_of_error {cs : List Char} {fault : LexFault}
    (h : scan cs = .error fault) (hends : fault ≠ .unterminatedString) (more : List Char) :
    scan (cs ++ more) = .error fault := by
  fun_induction scan cs with
  | case1 | case3 =>
      cases h
      exact absurd rfl hends
  | case2 => cases h
  | case4 e cs he =>
      cases h
      simp [scan, he]
  | case5 e cs c he ih =>
      cases hs : scan cs with
      | ok s => simp [hs, Except.map] at h
      | error fault' =>
          simp only [hs, Except.map, Except.error.injEq] at h
          subst h
          simp [scan, he, ih hs, Except.map]
  | case6 | case7 =>
      cases h
      rfl
  | case8 c cs hquote hlast hescape hline hbrace ih =>
      have hback : c ≠ '\\' := by
        intro hc
        cases cs with
        | nil => exact hlast hc rfl
        | cons e cs => exact hescape e cs hc rfl
      cases hs : scan cs with
      | ok s => simp [hs, Except.map] at h
      | error fault' =>
          simp only [hs, Except.map, Except.error.injEq] at h
          subst h
          rw [List.cons_append, scan_cons_of_plain _ hquote hback hline hbrace, ih hs]
          rfl

/-- Faults inside of strings are met behind a quote. -/
theorem exists_quote_of_scanTag {cs : List Char} {fault : LexFault}
    (h : scanTag cs = .error fault) (hfault : fault.isInString = true) :
    ∃ body, cs = '"' :: body ∧ Quoted.scan body = .error fault := by
  cases scansTag_of_eq h with
  | badString hs => exact ⟨_, rfl, hs⟩
  | ended | noFunction | malformed | unexpected => cases hfault

/-- Faults inside of strings are met in tags. -/
theorem mode_of_isInString {mode : Mode} {cs passed : List Char} {fault : LexFault}
    (h : step mode cs = .fault passed fault) (hfault : fault.isInString = true) :
    mode = .tag := by
  cases mode with
  | tag => rfl
  | text =>
      simp only [step] at h
      rw [textStep.eq_def] at h
      split at h
      · cases h
      · cases h
      · split at h
        · cases h
        · cases h
          cases hfault

/-- **Faults inside of strings** are the same whatever is put behind the input. -/
theorem step_append_of_isInString {mode : Mode} {cs passed : List Char} {fault : LexFault}
    (h : step mode cs = .fault passed fault) (hfault : fault.isInString = true)
    (more : List Char) : step mode (cs ++ more) = .fault passed fault := by
  obtain rfl := mode_of_isInString h hfault
  simp only [step, tagStep] at h
  split at h
  · cases h
  · rename_i hscan
    cases h
    obtain ⟨body, hbody, hquoted⟩ := exists_quote_of_scanTag hscan hfault
    have hgap : ∀ c ∈ cs.takeWhile isBlank, isBlank c = true :=
      fun c hc => List.mem_takeWhile_imp hc
    have hcs : cs ++ more = cs.takeWhile isBlank ++ '"' :: (body ++ more) := by
      rw [← List.cons_append, ← hbody, ← List.append_assoc, List.takeWhile_append_dropWhile]
    have hmore := Quoted.scan_append_of_error hquoted (by rintro rfl; cases hfault) more
    have hscan' : scanTag ('"' :: (body ++ more)) = .error fault := by
      simp [scanTag, hmore, Except.map]
    rw [hcs]
    exact step_tag_of_scanTag_eq_error hgap (by simp [isBlank]) hscan'

/-! ### Two parsers side by side -/

/-- **Where definite errors are found**: at the closing mark of a tag, or at an equals sign. -/
theorem Control.endsItself_of_receive {c : Control} {b : Builder} {t : Token} {e : ParseError}
    (ht : t.isTagContent = true ↔ c.mode = .tag) (heof : t ≠ .eof)
    (h : c.receive b t = .done (.error e)) (hkind : e.kind.isDefinite = true) :
    t.endsItself = true := by
  cases c with
  | outside =>
      have hoff : t.isTagContent = false := by simpa [Control.mode] using ht
      cases t with
      | text _ | tagOpen => cases h
      | eof => exact absurd rfl heof
      | _ => cases hoff
  | head =>
      simp only [Control.receive] at h
      split at h
      · cases h
        cases hkind
      · cases h
  | elements tag es =>
      have hon : t.isTagContent = true := ht.mpr rfl
      cases t with
      | tagClose | echo => rfl
      | text _ | tagOpen | eof => cases hon
      | name _ | function _ | integer _ | double _ | string _ | operator _ => cases h

/-- What a step hands out belongs into tags if the mode is that of tags. -/
theorem isTagContent_iff_of_step {mode mode' : Mode} {cs rest : List Char} {l : Lexeme}
    (h : step mode cs = .token l mode' rest) : l.token.isTagContent = true ↔ mode = .tag := by
  rw [(gap_of_step h).1, Token.mode]
  split <;> simp_all

namespace Parser

/-- **A parser with more input behind** that of another one, both at the same point. -/
structure Ahead (more : List Char) (p p' : Parser) : Prop where
  /-- They are at the same place. -/
  control : p'.control = p.control
  /-- They have put the same together. -/
  builder : p'.builder = p.builder
  /-- They have read as much. -/
  offset : p'.lexer.offset = p.lexer.offset
  /-- They have the same to read, and the second one has more. -/
  input : ∃ cs, p.lexer.input = some (p.control.mode, cs) ∧
    p'.lexer.input = some (p.control.mode, cs ++ more)

/-- **A parser at the end** of its source. -/
def AtEnd (p : Parser) : Prop := p.lexer.input = some (p.control.mode, [])

/-- Loops left open are no definite error. -/
theorem isDefinite_of_finish {b : Builder} {e : ParseError} (h : b.finish = .error e) :
    e.kind.isDefinite = false := by
  rw [Builder.finish] at h
  split at h
  · cases h
  · cases h
    rfl

/-- At the end there is nothing more to ask, and no definite error. -/
theorem AtEnd.turn {p : Parser} (h : p.AtEnd) :
    ∃ result, p.turn = .done result ∧ ∀ e, result = .error e → e.kind.isDefinite = false := by
  cases hmode : p.control.mode with
  | text =>
      have hstep : step p.control.mode [] = .finished := by rw [hmode]; rfl
      exact ⟨_, turn_of_finished h hstep, fun e he => isDefinite_of_finish he⟩
  | tag =>
      have hstep : step p.control.mode [] = .fault [] .unterminatedTag := by rw [hmode]; rfl
      refine ⟨_, turn_of_fault h hstep, fun e he => ?_⟩
      cases he
      rfl

section Simulation

variable {more : List Char} {p p' q : Parser}

/-- **A call after which there is more to ask**: it is the same call in both runs, unless the first
one comes to the end of its source. -/
theorem Ahead.turn_more (h : Ahead more p p') (hturn : p.turn = .more q) :
    (∃ q', p'.turn = .more q' ∧ Ahead more q q') ∨ q.AtEnd := by
  obtain ⟨cs, hinput, hinput'⟩ := h.input
  cases hstep : step p.control.mode cs with
  | finished =>
      rw [turn_of_finished hinput hstep] at hturn
      cases hturn
  | fault passed fault =>
      rw [turn_of_fault hinput hstep] at hturn
      cases hturn
  | token l mode' rest =>
      cases hreceive : p.control.receive p.builder l.token with
      | done result =>
          rw [turn_of_done hinput hstep hreceive] at hturn
          cases hturn
      | more next =>
          obtain ⟨c, b⟩ := next
          rw [turn_of_more hinput hstep hreceive, Lexer.next_of_token hinput hstep] at hturn
          obtain rfl := Control.mode_of_receive hstep hreceive
          cases hturn
          by_cases hrest : rest = []
          · exact Or.inr (by rw [hrest]; rfl)
          · -- there is something behind the token, so that it is the same in both
            have hstep' := step_append hstep (Or.inl hrest) more
            rw [← h.control, ← h.builder] at hreceive
            refine Or.inl ⟨_, turn_of_more hinput' hstep' hreceive, ?_⟩
            rw [Lexer.next_of_token hinput' hstep']
            exact ⟨rfl, rfl, by rw [h.offset], rest, rfl, rfl⟩

/-- **A call after which there is a definite error** is the same call in both runs. -/
theorem Ahead.turn_done {e : ParseError} (h : Ahead more p p') (hturn : p.turn = .done (.error e))
    (hkind : e.kind.isDefinite = true) : p'.turn = .done (.error e) := by
  obtain ⟨cs, hinput, hinput'⟩ := h.input
  cases hstep : step p.control.mode cs with
  | finished =>
      rw [turn_of_finished hinput hstep, Turn.done.injEq] at hturn
      rw [isDefinite_of_finish hturn] at hkind
      cases hkind
  | fault passed fault =>
      rw [turn_of_fault hinput hstep] at hturn
      cases hturn
      rw [turn_of_fault hinput' (step_append_of_isInString hstep hkind more), h.offset]
  | token l mode' rest =>
      cases hreceive : p.control.receive p.builder l.token with
      | more next =>
          rw [turn_of_more hinput hstep hreceive] at hturn
          cases hturn
      | done result =>
          rw [turn_of_done hinput hstep hreceive, Turn.done.injEq] at hturn
          subst hturn
          have hself := Control.endsItself_of_receive (isTagContent_iff_of_step hstep)
            (token_ne_eof_of_step hstep) hreceive hkind
          have hstep' := step_append hstep (Or.inr hself) more
          rw [← h.control, ← h.builder] at hreceive
          exact turn_of_done hinput' hstep' hreceive

/-- **The two runs side by side**: at every point of the first run there is the same point of the
second one, unless the first has come to the end of its source. -/
theorem Asks.ahead_or_atEnd {s : String} (h : Asks s p) (t : String) :
    (∃ p', Asks (s ++ t) p' ∧ Ahead t.toList p p') ∨ p.AtEnd := by
  induction h with
  | start =>
      refine Or.inl ⟨ofSource (s ++ t), .start, rfl, rfl, rfl, s.toList, rfl, ?_⟩
      rw [← String.toList_append]
      rfl
  | @more p q _ hturn ih =>
      rcases ih with ⟨p', hasks, hahead⟩ | hend
      · rcases hahead.turn_more hturn with ⟨q', hturn', hahead'⟩ | hend
        · exact Or.inl ⟨q', hasks.more hturn', hahead'⟩
        · exact Or.inr hend
      · obtain ⟨result, hdone, -⟩ := hend.turn
        rw [hturn] at hdone
        cases hdone

end Simulation

end Parser

/-- **Definite errors stand whatever follows** the source: elements that do not fit their tag, an
end without its loop, an equals sign among elements, a line feed or a brace in a string. -/
theorem parse_append_of_isDefinite (s : String) (e : ParseError) (h : parse s = .error e)
    (hkind : e.kind.isDefinite = true) (t : String) : parse (s ++ t) = .error e := by
  obtain ⟨p, hasks, hdone⟩ := (Parser.ends_iff s (.error e)).mpr h.symm
  rcases hasks.ahead_or_atEnd t with ⟨p', hasks', hahead⟩ | hend
  · have hends : Parser.Ends (s ++ t) (.error e) := ⟨p', hasks', hahead.turn_done hdone hkind⟩
    exact ((Parser.ends_iff (s ++ t) (.error e)).mp hends).symm
  · obtain ⟨result, hresult, hnot⟩ := hend.turn
    rw [hdone, Turn.done.injEq] at hresult
    rw [hnot e hresult.symm] at hkind
    cases hkind

/-- An end without its loop stands although the text behind it becomes another one and a number
there is malformed, and so does an equals sign that is the last character. -/
theorem parse_append_of_isDefinite_brace :
    parse ("\x7b$END$\x7dé\x7b" ++ "$5.") = .error .unmatchedLeave ∧
    parse ("\x7b$FOR i =" ++ "=\"") = .error (.unexpectedInTag .echo .enter) ∧
    parse ("\x7b$= \"a\n" ++ "\" $\x7d") = .error (.lexical ⟨.newlineInString, 4⟩) :=
  ⟨parse_append_of_isDefinite _ _ (by cbv) (by decide) _,
    parse_append_of_isDefinite _ _ (by cbv) (by decide) _,
    parse_append_of_isDefinite _ _ (by cbv) (by decide) _⟩

end TagTemplate
