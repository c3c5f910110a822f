import TagTemplate.Proofs.Lexeme

/-!
# What a quoted string is

Between its quotes a string is a body: characters that stand for themselves, and pairs of a
backslash and another character that stand for one (`Spells`). The reader of strings accepts a body
with its closing quote and nothing else, and what it returns is the text of that body. In front of
anything else there is still a body, and what stands behind it is the first fault (`Stops`).

Every input begins with a body up to a closing quote or to where it goes wrong
(`exists_spells_append`), and over a body the reader goes on as it would behind it
(`Spells.scan_append`). Both directions of what is accepted and of what is refused follow from the
two.

## Main results

* `scan_eq_ok_iff`: strings that are read are bodies with their closing quote.
* `scan_eq_error_iff`: a fault is the first one from left to right.
* `scan_decodes`: the grammar of strings, counted in bytes, and quoting undone in front of
  anything.
-/

namespace TagTemplate.Quoted

/-! ### The grammar -/

/-- The characters that do not stand for themselves in a string. -/
def special : List Char := ['"', '\\', '\n', '{']

/-- What may stand behind a backslash, and the character that is meant. -/
def escapes : List (Char × Char) :=
  [('\\', '\\'), ('"', '"'), ('{', '{'), ('n', '\n'), ('t', '\t'), ('r', '\r')]

/-- **The body of a string**, behind the text it stands for. -/
inductive Spells : List Char → List Char → Prop
  | nil : Spells [] []
  /-- A character that stands for itself. -/
  | plain {c : Char} {text body : List Char} :
      c ∉ special → Spells text body → Spells (c :: text) (c :: body)
  /-- A character by its escape. -/
  | escape {e c : Char} {text body : List Char} :
      (e, c) ∈ escapes → Spells text body → Spells (c :: text) ('\\' :: e :: body)

/-- **Where a body goes wrong**: the input from there on, and the fault. -/
inductive Stops : List Char → LexFault → Prop
  /-- A backslash in front of a character that it does not escape. -/
  | escape {e : Char} {rest : List Char} :
      (∀ c, (e, c) ∉ escapes) → Stops ('\\' :: e :: rest) .invalidEscape
  /-- A line feed. -/
  | line {rest : List Char} : Stops ('\n' :: rest) .newlineInString
  /-- An opening brace. -/
  | brace {rest : List Char} : Stops ('{' :: rest) .braceInString
  /-- The end of the input. -/
  | ended : Stops [] .unterminatedString
  /-- A backslash at the end of the input. -/
  | backslash : Stops ['\\'] .unterminatedString

/-! ### Reading by the grammar -/

/-- Escapes are read as the table has them. -/
theorem unescapeChar?_eq_some_iff {e c : Char} : unescapeChar? e = some c ↔ (e, c) ∈ escapes := by
  rw [unescapeChar?.eq_def]
  split <;> simp_all [escapes, eq_comm]

/-- What the table does not have is no escape. -/
theorem unescapeChar?_eq_none_iff {e : Char} : unescapeChar? e = none ↔ ∀ c, (e, c) ∉ escapes := by
  simp only [← unescapeChar?_eq_some_iff, Option.eq_none_iff_forall_ne_some]

/-- What is read behind a body of a text. -/
def behind (text body : List Char) (s : Scanned) : Scanned :=
  ⟨text ++ s.value, body ++ s.chars, s.rest⟩

/-- **Over a body the reader goes on** as it would behind it. -/
theorem Spells.scan_append {text body : List Char} (h : Spells text body) (rest : List Char) :
    scan (body ++ rest) = (scan rest).map (behind text body) := by
  induction h with
  | nil => cases hrest : scan rest <;> simp [hrest, Except.map, behind]
  | @plain c text body hc _ ih =>
      simp only [special, List.mem_cons, List.not_mem_nil, or_false, not_or] at hc
      obtain ⟨hquote, hback, hline, hbrace⟩ := hc
      rw [List.cons_append, scan_cons_of_plain _ hquote hback hline hbrace, ih]
      cases scan rest <;> simp [Except.map, behind, Scanned.extend]
  | @escape e c text body he _ ih =>
      rw [List.cons_append, List.cons_append, scan]
      simp only [unescapeChar?_eq_some_iff.mpr he, ih]
      cases scan rest <;> simp [Except.map, behind, Scanned.extend]

/-- Where a body goes wrong the reader stops. -/
theorem Stops.scan_eq {rest : List Char} {fault : LexFault} (h : Stops rest fault) :
    scan rest = .error fault := by
  cases h with
  | line | brace | ended | backslash => rfl
  | escape he => simp only [scan, unescapeChar?_eq_none_iff.mpr he]

/-- **Every input begins with a body**, up to a closing quote or to where it goes wrong. -/
theorem exists_spells_append (cs : List Char) :
    ∃ text body rest, Spells text body ∧ cs = body ++ rest ∧
      ((∃ more, rest = '"' :: more) ∨ ∃ fault, Stops rest fault) := by
  fun_induction scan cs with
  | case1 => exact ⟨[], [], [], .nil, rfl, Or.inr ⟨_, .ended⟩⟩
  | case2 cs => exact ⟨[], [], '"' :: cs, .nil, rfl, Or.inl ⟨cs, rfl⟩⟩
  | case3 => exact ⟨[], [], ['\\'], .nil, rfl, Or.inr ⟨_, .backslash⟩⟩
  | case4 e cs he =>
      exact ⟨[], [], '\\' :: e :: cs, .nil, rfl,
        Or.inr ⟨_, .escape (unescapeChar?_eq_none_iff.mp he)⟩⟩
  | case5 e cs c he ih =>
      obtain ⟨text, body, rest, hspells, rfl, hrest⟩ := ih
      exact ⟨c :: text, '\\' :: e :: body, rest, .escape (unescapeChar?_eq_some_iff.mp he) hspells,
        rfl, hrest⟩
  | case6 cs => exact ⟨[], [], '\n' :: cs, .nil, rfl, Or.inr ⟨_, .line⟩⟩
  | case7 cs => exact ⟨[], [], '{' :: cs, .nil, rfl, Or.inr ⟨_, .brace⟩⟩
  | case8 c cs hquote hlast hescape hline hbrace ih =>
      obtain ⟨text, body, rest, hspells, rfl, hrest⟩ := ih
      have hback : c ≠ '\\' := by
        intro hc
        cases hmore : body ++ rest with
        | nil => exact hlast hc hmore
        | cons e more => exact hescape e more hc hmore
      refine ⟨c :: text, c :: body, rest, .plain ?_ hspells, rfl, hrest⟩
      simp only [special, List.mem_cons, List.not_mem_nil, or_false, not_or]
      exact ⟨hquote, hback, hline, hbrace⟩

/-- A body with its closing quote is read. -/
theorem Spells.scan_quote_append {text body : List Char} (h : Spells text body)
    (rest : List Char) : scan (body ++ '"' :: rest) = .ok ⟨text, body ++ ['"'], rest⟩ := by
  rw [h.scan_append]
  simp [scan, Except.map, behind]

/-- A body that goes wrong is refused. -/
theorem Spells.scan_append_of_stops {text body rest : List Char} (h : Spells text body)
    {fault : LexFault} (hrest : Stops rest fault) : scan (body ++ rest) = .error fault := by
  rw [h.scan_append, hrest.scan_eq]
  rfl

/-- **What is read** is a body with its closing quote, and it is read as the text of that body. -/
theorem scan_eq_ok_iff {cs : List Char} {s : Scanned} :
    scan cs = .ok s ↔
      ∃ body, Spells s.value body ∧ s.chars = body ++ ['"'] ∧ cs = body ++ '"' :: s.rest := by
  constructor
  · intro h
    obtain ⟨text, body, rest, hspells, rfl, ⟨more, rfl⟩ | ⟨fault, hstops⟩⟩ :=
      exists_spells_append cs
    · rw [hspells.scan_quote_append] at h
      cases h
      exact ⟨body, hspells, rfl, rfl⟩
    · rw [hspells.scan_append_of_stops hstops] at h
      cases h
  · rintro ⟨body, hspells, hchars, rfl⟩
    rw [hspells.scan_quote_append, ← hchars]

/-- **What is refused** is a body that goes wrong, and the fault is the one behind it: the first from
left to right. -/
theorem scan_eq_error_iff {cs : List Char} {fault : LexFault} :
    scan cs = .error fault ↔
      ∃ text body rest, Spells text body ∧ Stops rest fault ∧ cs = body ++ rest := by
  constructor
  · intro h
    obtain ⟨text, body, rest, hspells, rfl, ⟨more, rfl⟩ | ⟨fault', hstops⟩⟩ :=
      exists_spells_append cs
    · rw [hspells.scan_quote_append] at h
      cases h
    · rw [hspells.scan_append_of_stops hstops] at h
      cases h
      exact ⟨text, body, rest, hspells, hstops, rfl⟩
  · rintro ⟨text, body, rest, hspells, hstops, rfl⟩
    exact hspells.scan_append_of_stops hstops

/-! ### Strings -/

/-- What stands behind the opening quote of a quoted text. -/
theorem tail_quote (text : String) :
    (quote text).toList.tail = text.toList.flatMap escapeChar ++ ['"'] := by
  simp [quote]

/-- **Strings are decoded by their grammar, and quoting is undone.** A text is read up to some place
of a source, and so many bytes are used, exactly if a body of that text and the closing quote
stand up to there. A quoted text is read back in front of anything. -/
theorem scan_decodes :
    (∀ (source text rest : String) (k : ℕ),
      (∃ chars, scan source.toList = .ok ⟨text.toList, chars, rest.toList⟩ ∧ byteLength chars = k) ↔
        ∃ body : String, Spells text.toList body.toList ∧ source = body ++ "\"" ++ rest ∧
          k = (body ++ "\"").utf8ByteSize) ∧
    ∀ text more : String,
      scan ((quote text).toList.tail ++ more.toList) =
        .ok ⟨text.toList, (quote text).toList.tail, more.toList⟩ := by
  refine ⟨fun source text rest k => ?_, fun text more => ?_⟩
  · constructor
    · rintro ⟨chars, hscan, rfl⟩
      obtain ⟨body, hspells, hchars, hsource⟩ := scan_eq_ok_iff.mp hscan
      simp only at hspells hchars hsource
      refine ⟨String.ofList body, by rwa [String.toList_ofList], ?_, ?_⟩
      · rw [← String.ofList_toList (s := source), hsource]
        simp [← String.toList_inj]
      · rw [hchars, String.utf8ByteSize_append, utf8ByteSize_ofList, byteLength_append]
        rfl
    · rintro ⟨body, hspells, rfl, rfl⟩
      refine ⟨body.toList ++ ['"'], ?_, ?_⟩
      · have hscan := hspells.scan_quote_append rest.toList
        simpa using hscan
      · rw [byteLength_append, byteLength_toList, String.utf8ByteSize_append]
        rfl
  · rw [tail_quote, List.append_assoc, List.singleton_append]
    exact scan_escape_append text.toList more.toList

end TagTemplate.Quoted
