import TagTemplate.Proofs.Lockstep

/-!
# Arguments read back

In a tag elements stand one behind the other with a single blank between two of them, and with one
more in front of the closing mark. This module says what is read of that, in tag mode and in front
of any text whatever: each element is one lexeme, spelled as the element is written, so that no
element is glued to its neighbour or split, the closing mark comes next, and behind it the text is
read as if on its own.

There is a passage through the lexemes of the elements and the closing mark (`passage_arguments`).
All else is a matter of what a passage means: it comes first in the reading of the input
(`Passage.lex_eq`), a lexer hands out its tokens call by call (`Passage.exists_handsOut`), and a
parser in a tag collects the elements they stand for (`Passage.collects`).

## Main results

* `passage_arguments`: the passage through elements and their closing mark.
* `arguments_read_back`: what lexers and parsers make of the contents of a tag.
-/

namespace TagTemplate

/-! ### Lexemes handed out -/

/-- **A lexer that hands out lexemes**, and what it is behind them. -/
structure Lexer.HandsOut (l : Lexer) (xs : List Lexeme) (mode : Mode) (rest : List Char)
    (l' : Lexer) : Prop where
  /-- Each call for a token is answered with one. -/
  run : l.run (List.replicate xs.length .next) =
    ((xs.map Lexeme.token).map fun t => .next (.ok t), l')
  /-- This is the input behind them. -/
  input : l'.input = some (mode, rest)
  /-- It begins where they end. -/
  offset : l'.offset = l.offset + byteLength (Lexing.charsOf xs)
  /-- The mode is the one behind the last of them. -/
  mode : ∀ x ∈ xs.getLast?, l'.mode = modeBehind x.token mode rest

/-- A lexer in front of a passage hands out the lexemes of the passage. -/
theorem Passage.exists_handsOut {mode mode' : Mode} {cs rest : List Char} {xs : List Lexeme}
    (h : Passage mode cs xs mode' rest) {l : Lexer} (hinput : l.input = some (mode, cs)) :
    ∃ l', l.HandsOut xs mode' rest l' := by
  induction h generalizing l with
  | refl => exact ⟨l, rfl, hinput, rfl, by simp⟩
  | @step mode mode' last cs rest final x xs hstep hrest ih =>
      have hnext := Lexer.next_of_token hinput hstep
      have hinput' : l.next.2.input = some (mode', rest) := by rw [hnext]
      obtain ⟨l', hl'⟩ := ih hinput'
      refine ⟨l', ?_, hl'.input, ?_, fun y hy => ?_⟩
      · simp only [List.length_cons, List.replicate_succ, Lexer.run, Lexer.call, hl'.run]
        rw [hnext]
        rfl
      · rw [hl'.offset, hnext]
        simp [Lexing.charsOf, byteLength_append, Lexeme.spanFrom, Nat.add_assoc]
      · -- this step sets the mode only if no other lexeme follows
        cases xs with
        | nil =>
            have hlast : l.next.2 = l' := congrArg Prod.snd hl'.run
            cases hrest
            obtain rfl : x = y := by simpa using hy
            rw [← hlast, hnext]
        | cons z zs =>
            rw [List.getLast?_cons_cons] at hy
            exact hl'.mode y hy

/-! ### Elements collected -/

/-- A parser in a tag collects the elements that it is given the tokens of. -/
theorem Control.receive_token (b : Builder) (tag : Tag) (soFar : List Element) (e : Element) :
    (Control.elements tag soFar).receive b e.token = .more (.elements tag (soFar ++ [e]), b) := by
  cases e <;> rfl

/-- From one point of a run to another, turn by turn. -/
def Parser.Leads : Parser → Parser → Prop := Relation.ReflTransGen fun p q => p.turn = .more q

/-- **A parser in front of a passage** through the lexemes of elements collects these. -/
theorem Passage.collects {mode mode' : Mode} {cs rest : List Char} {xs : List Lexeme}
    (h : Passage mode cs xs mode' rest) {es : List Element}
    (htokens : xs.map Lexeme.token = es.map Element.token) {p : Parser} {tag : Tag}
    {soFar : List Element} (hcontrol : p.control = .elements tag soFar)
    (hinput : p.lexer.input = some (mode, cs)) :
    p.Leads ⟨.elements tag (soFar ++ es), p.builder,
      (p.lexer.run (List.replicate xs.length .next)).2⟩ := by
  induction h generalizing es p soFar with
  | refl =>
      obtain rfl : es = [] := by simpa using htokens
      obtain ⟨control, builder, lexer⟩ := p
      obtain rfl : control = .elements tag soFar := hcontrol
      rw [List.append_nil]
      exact Relation.ReflTransGen.refl
  | @step mode mode' last cs rest final x xs hstep _ ih =>
      cases es with
      | nil => simp at htokens
      | cons e es =>
          obtain ⟨htoken, htokens⟩ := List.cons.inj htokens
          have hreceive : p.control.receive p.builder x.token =
              .more (.elements tag (soFar ++ [e]), p.builder) := by
            rw [hcontrol, htoken, Control.receive_token]
          have hturn := Parser.turn_of_more hinput hstep hreceive
          have hinput' : p.lexer.next.2.input = some (mode', rest) := by
            rw [Lexer.next_of_token hinput hstep]
          have hbehind := ih htokens
            (p := ⟨.elements tag (soFar ++ [e]), p.builder, p.lexer.next.2⟩) rfl hinput'
          rw [List.append_assoc, List.singleton_append] at hbehind
          exact Relation.ReflTransGen.head hturn hbehind

/-! ### Through the contents of a tag -/

namespace Element

/-- The lexemes of elements in a tag. There is a blank in front of every one but the first. -/
def lexemes : List Element → List Lexeme
  | [] => []
  | e :: es => e.lexeme [] :: es.map (lexeme [' '])

/-- They are the tokens of the elements. -/
theorem map_token_lexemes (es : List Element) : (lexemes es).map Lexeme.token = es.map token := by
  cases es with
  | nil => rfl
  | cons e es => rw [lexemes, List.map_cons, map_token_lexeme, List.map_cons, lexeme]

/-- There is one for each element. -/
theorem length_lexemes (es : List Element) : (lexemes es).length = es.length := by
  cases es <;> simp [lexemes]

/-- **Elements in a tag**, in front of a blank. -/
theorem passage_lexemes {es : List Element} (h : ∀ e ∈ es, e.IsFinite) (rest : List Char) :
    Passage .tag ((Node.elementsText es).toList ++ ' ' :: rest) (lexemes es) .tag
      (' ' :: rest) := by
  cases es with
  | nil => exact Passage.refl
  | cons e es =>
      have hgap : ∀ c ∈ ([] : List Char), isBlank c = true := by simp
      exact passage_elementsText h hgap rest

end Element

/-- The closing mark of a tag, behind the blank that is written in front of it. -/
def Lexeme.tagClose : Lexeme := ⟨[' '], ['$', '}'], .tagClose⟩

/-- The contents of a tag as they are written, and a text behind the tag. -/
def Node.argumentsText (es : List Element) (t : String) : String :=
  elementsText es ++ " $\x7d" ++ t

/-- The characters of the contents of a tag. -/
theorem Node.toList_argumentsText (es : List Element) (t : String) :
    (argumentsText es t).toList = (elementsText es).toList ++ ' ' :: '$' :: '}' :: t.toList := by
  simp [argumentsText]

/-- The closing mark is the lexeme in front of the text. -/
theorem step_tagClose (rest : List Char) :
    step .tag (' ' :: '$' :: '}' :: rest) = .token Lexeme.tagClose .text rest := rfl

/-- **The contents of a tag**: the elements, the closing mark, and what follows the tag. -/
theorem passage_arguments {es : List Element} (h : ∀ e ∈ es, e.IsFinite) (t : String) :
    Passage .tag (Node.argumentsText es t).toList (Element.lexemes es ++ [Lexeme.tagClose]) .text
      t.toList := by
  rw [Node.toList_argumentsText]
  exact (Element.passage_lexemes h _).trans (Passage.step (step_tagClose t.toList) Passage.refl)

/-! ### All that is known -/

/-- **Elements that read back** from the contents of a tag, whatever text stands behind the tag. -/
structure ArgumentsReadBack (es : List Element) (t : String) : Prop where
  /-- Each element is one lexeme, spelled as the element is written, and behind the closing mark
  the text is read as if on its own. -/
  lexing : lex .tag (Node.argumentsText es t).toList =
    { lex .text t.toList with
      lexemes := Element.lexemes es ++ Lexeme.tagClose :: (lex .text t.toList).lexemes }
  /-- The tokens are those of the elements, the closing mark, and those of the text. -/
  tokens : (lex .tag (Node.argumentsText es t).toList).tokens =
    es.map Element.token ++ .tagClose :: (lex .text t.toList).tokens
  /-- A lexer answers as many calls with the tokens of the elements and the closing mark, and is
  then in text mode in front of the text. -/
  lexer : ∀ l : Lexer, l.input = some (.tag, (Node.argumentsText es t).toList) →
    ∃ l', l.run (List.replicate (es.length + 1) .next) =
        ((es.map Element.token ++ [Token.tagClose]).map fun t => .next (.ok t), l') ∧
      l'.input = some (.text, t.toList) ∧ l'.mode = .text ∧
      l'.offset + t.utf8ByteSize = l.offset + (Node.argumentsText es t).utf8ByteSize
  /-- The arguments read from the tokens are the elements. -/
  arguments : ∀ stop tag,
    readArguments stop tag (lex .tag (Node.argumentsText es t).toList).tokens =
      .ok (es, (lex .text t.toList).tokens)
  /-- A parser that asks a lexer for them collects the elements, and is given the closing mark
  next, behind which the lexer is in front of the text. -/
  parser : ∀ (p : Parser) (tag : Tag) (soFar : List Element), p.control = .elements tag soFar →
    p.lexer.input = some (.tag, (Node.argumentsText es t).toList) →
    ∃ q, p.Leads q ∧ q.control = .elements tag (soFar ++ es) ∧ q.builder = p.builder ∧
      q.lexer.next.1 = .ok .tagClose ∧ q.lexer.next.2.input = some (.text, t.toList)

/-- **Arguments read back** as one token for each element. -/
theorem arguments_read_back (es : List Element) (h : ∀ e ∈ es, e.IsFinite) (t : String) :
    ArgumentsReadBack es t := by
  have hpassage := passage_arguments h t
  have hlexing : lex .tag (Node.argumentsText es t).toList =
      { lex .text t.toList with
        lexemes := Element.lexemes es ++ Lexeme.tagClose :: (lex .text t.toList).lexemes } := by
    rw [hpassage.lex_eq, List.append_assoc, List.singleton_append]
  have htokens : (lex .tag (Node.argumentsText es t).toList).tokens =
      es.map Element.token ++ .tagClose :: (lex .text t.toList).tokens := by
    rw [hlexing, Lexing.tokens, List.map_append, Element.map_token_lexemes]
    rfl
  refine ⟨hlexing, htokens, fun l hinput => ?_, fun stop tag => ?_,
    fun p tag soFar hcontrol hinput => ?_⟩
  · obtain ⟨l', hrun, hinput', hoffset, hmode⟩ := hpassage.exists_handsOut hinput
    refine ⟨l', ?_, hinput', hmode Lexeme.tagClose (by simp), ?_⟩
    · rwa [List.length_append, Element.length_lexemes, List.map_append,
        Element.map_token_lexemes] at hrun
    · rw [hoffset, ← byteLength_toList, ← byteLength_toList, ← hpassage.charsOf_append,
        byteLength_append, Nat.add_assoc]
  · rw [htokens, readArguments_map_token]
  · rw [Node.toList_argumentsText] at hinput
    have helements := Element.passage_lexemes h ('$' :: '}' :: t.toList)
    obtain ⟨l', hrun, hinput', -, -⟩ := helements.exists_handsOut hinput
    have hnext := Lexer.next_of_token hinput' (step_tagClose t.toList)
    have hleads := helements.collects (Element.map_token_lexemes es) hcontrol hinput
    rw [hrun] at hleads
    exact ⟨_, hleads, rfl, rfl, by rw [hnext]; rfl, by rw [hnext]⟩

/-- A sign in front of a number, a mark within a string, and a zero with a sign. -/
theorem arguments_read_back_signs :
    (lex .tag "- 5 x @sin \" $\x7d\" -0.0 $\x7d$\x7d".toList).tokens =
      [.operator .subtract, .integer 5, .name ⟨"x", by decide⟩, .function ⟨"sin", by decide⟩,
        .string " $\x7d", .double ⟨true, 0#63⟩, .tagClose, .text "$\x7d"] := by
  have hwritten : Node.argumentsText [.operator .subtract, .integer 5, .var ⟨"x", by decide⟩,
      .function ⟨"sin", by decide⟩, .string " $\x7d", .double ⟨true, 0#63⟩] "$\x7d" =
      "- 5 x @sin \" $\x7d\" -0.0 $\x7d$\x7d" := by decide +kernel
  have hzero : (Binary64.mk true 0#63).isFinite = true := by decide
  have htext : (lex .text "$\x7d".toList).tokens = [.text "$\x7d"] := by cbv
  rw [← hwritten, (arguments_read_back _ (by simp [Element.IsFinite, hzero]) _).tokens, htext]
  rfl

end TagTemplate
