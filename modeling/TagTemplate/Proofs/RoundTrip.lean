import TagTemplate.View
import TagTemplate.Proofs.Canonical

/-!
# Round trips

`verifyRoundTrip` regenerates the template of what it has read, reads that again and compares. The
comparison forgives small differences between doubles. None ever arise: what is read the second
time is the same document, bit for bit, so the check fails on sources that are no templates and on
nothing else (`verifyRoundTrip_spec`).

## Main results

* `Document.agrees_self`: a document that can be written agrees with itself.
* `parse_source_of_parse`: what was read reads back to itself.
* `verifyRoundTrip_spec`: the check comes out as the first reading does.
-/

namespace TagTemplate

/-! ### Agreement with oneself -/

/-- A finite double is the same value as itself; only a NaN is not. -/
theorem Binary64.sameValue_self {x : Binary64} (h : x.isFinite = true) : x.sameValue x = true := by
  simp [Binary64.sameValue, Binary64.isNaN_of_isFinite h]

/-- Finite elements agree with themselves. -/
theorem Element.agrees_self {e : Element} (h : e.IsFinite) : e.agrees e = true := by
  cases e with
  | double value => simp [Element.agrees, Element.near, Binary64.sameValue_self h]
  | _ => simp [Element.agrees]

/-- So do several of them. -/
theorem Element.agreesAll_self {es : List Element} (h : ∀ e ∈ es, e.IsFinite) :
    Element.agreesAll es es = true := by
  induction es with
  | nil => rfl
  | cons e es ih =>
      rw [Element.agreesAll, Element.agrees_self (h e (by simp)),
        ih fun e' he' => h e' (by simp [he'])]
      rfl

/-- Headers with finite bounds agree with themselves. -/
theorem LoopHeader.agrees_self {h : LoopHeader} (hfinite : ∀ e ∈ h.elements, e.IsFinite) :
    h.agrees h = true := by
  have hbound (b : Bound) (hb : b.element ∈ h.elements) : b.agrees b = true :=
    Element.agrees_self (hfinite _ hb)
  have hstep : LoopHeader.stepsAgree h.step h.step = true := by
    cases hs : h.step with
    | none => rfl
    | some b => exact hbound b (by simp [LoopHeader.elements, hs])
  have hstart := hbound h.start (by simp [LoopHeader.elements])
  have hstop := hbound h.stop (by simp [LoopHeader.elements])
  simp [LoopHeader.agrees, hstart, hstop, hstep]

mutual

/-- Nodes that can be written agree with themselves. -/
theorem Node.agrees_self {n : Node} (h : n.Writable) : n.agrees n = true := by
  cases n with
  | text content => simp [Node.agrees]
  | echo elements => exact Element.agreesAll_self h.2
  | loop header body =>
      rw [Node.agrees, LoopHeader.agrees_self h.1, Node.agreesAll_self h.2]
      rfl

/-- So do nodes in a row. -/
theorem Node.agreesAll_self {ns : List Node} (h : Node.WritableAll ns) :
    Node.agreesAll ns ns = true := by
  cases ns with
  | nil => rfl
  | cons n ns =>
      rw [Node.agreesAll, Node.agrees_self h.1, Node.agreesAll_self h.2]
      rfl

end

/-- Documents that can be written agree with themselves. -/
theorem Document.agrees_self {d : Document} (h : d.Writable) : d.agrees d = true :=
  Node.agreesAll_self h

/-! ### The check -/

/-- **What was read reads back** to itself, from the template regenerated from it. -/
theorem parse_source_of_parse {source : String} {d : Document} (h : parse source = .ok d) :
    parse d.source = .ok d :=
  (canonical_of_parse h).parse_source_eq

/-- The check passes on templates. -/
theorem verifyRoundTrip_of_parse {source : String} {d : Document} (h : parse source = .ok d) :
    verifyRoundTrip source = .ok d := by
  obtain ⟨hwritable, -⟩ := Document.canonical_iff.mp (canonical_of_parse h)
  simp only [verifyRoundTrip, h, parse_source_of_parse h, Document.agrees_self hwritable, if_true]

/-- An error of the first reading is the error of the check. -/
theorem verifyRoundTrip_of_parse_error {source : String} {e : ParseError}
    (h : parse source = .error e) : verifyRoundTrip source = .error (.parse e) := by
  simp only [verifyRoundTrip, h]

/-- **Round trips succeed.** The document of a template reads back to the same document, whose
template is the same again, and the check returns it; an error of the check is the error of the
source itself. In particular it is neither a mismatch nor an error in a regenerated template. -/
theorem verifyRoundTrip_spec (source : String) :
    (∀ d, parse source = .ok d →
      (∃ again, parse d.source = .ok again ∧ again = d ∧ again.source = d.source) ∧
        verifyRoundTrip source = .ok d) ∧
    (∀ e, parse source = .error e → verifyRoundTrip source = .error (.parse e)) ∧
    ∀ f, verifyRoundTrip source = .error f → ∃ e, parse source = .error e ∧ f = .parse e := by
  refine ⟨fun d hd => ?_, fun e he => verifyRoundTrip_of_parse_error he, fun f hf => ?_⟩
  · exact ⟨⟨d, parse_source_of_parse hd, rfl, rfl⟩, verifyRoundTrip_of_parse hd⟩
  · cases hparse : parse source with
    | ok d =>
        rw [verifyRoundTrip_of_parse hparse] at hf
        cases hf
    | error e =>
        rw [verifyRoundTrip_of_parse_error hparse] at hf
        cases hf
        exact ⟨e, rfl, rfl⟩

/-- A template with a negative zero and the least positive double, both within the tolerance of
zero, gives them back; a source that is no template gives its own error. -/
theorem verifyRoundTrip_spec_ragged :
    parse Document.ragged.source = .ok Document.ragged.joined ∧
      parse Document.ragged.joined.source = .ok Document.ragged.joined ∧
      verifyRoundTrip Document.ragged.source = .ok Document.ragged.joined ∧
      verifyRoundTrip "\x7b$END$\x7d" = .error (.parse .unmatchedLeave) := by
  have hparse := Document.parse_source_eq Document.writable_ragged
  obtain ⟨⟨again, hagain, rfl, -⟩, hverify⟩ := (verifyRoundTrip_spec _).1 _ hparse
  have herror : parse "\x7b$END$\x7d" = .error .unmatchedLeave := by cbv
  exact ⟨hparse, hagain, hverify, (verifyRoundTrip_spec _).2.1 _ herror⟩

end TagTemplate
