import TagTemplate.CommandLine
import TagTemplate.Proofs.Concatenation
import TagTemplate.Proofs.RoundTrip

/-!
# Runs of the program

What a run prints and how it ends depends on the view of the source alone; what was told before
only goes to the other channel (`showSource_congr`). So a check that passes leaves no mark on the
output, and since templates always survive being regenerated (`verifyRoundTrip_of_parse`), a check
fails on sources that are no templates and on nothing else.

To show the regenerated template is to format a file. What is printed is the template of the
document, closed by a line feed where it has none at its end. The line feed is literal text: behind
a document it is a document of its own, which joins the text at the end if there is one
(`parse_source_append_line`). The template of that document is the printed text again, and has its
line feed, so a second run changes nothing.

## Main results

* `perform_eq_process`: a run with a view and a text at hand.
* `format_idempotent`: formatting twice is formatting once, and keeps the document.
* `verify_transparent`: what the check changes.
-/

namespace TagTemplate

/-! ### Templates in a row -/

/-- Texts in a row are escaped one after the other. -/
theorem Escaped.escape_append (a b : String) : escape (a ++ b) = escape a ++ escape b := by
  rw [← String.toList_inj]
  simp [escape]

/-- Nodes behind nodes are written behind them, whether two texts become one or not. -/
theorem Node.sourceAll_fuse (ns ms : List Node) :
    Node.sourceAll (Node.fuse ns ms) = Node.sourceAll ns ++ Node.sourceAll ms := by
  fun_induction Node.fuse ns ms with
  | case1 ms => simp [Node.sourceAll]
  | case2 a b ms => simp [Node.sourceAll, Node.source, Escaped.escape_append, String.append_assoc]
  | case3 n ns ms hnot ih => rw [Node.sourceAll, Node.sourceAll, ih, String.append_assoc]

/-- A document with a line feed behind it: at the end of its last text, or as a text of its own
where the last node is none. -/
inductive Document.LineEnded (d : Document) : Document → Prop where
  | joined {ns : List Node} {a : String} (h : d.children = ns ++ [.text a]) :
      LineEnded d { children := ns ++ [.text (a ++ "\n")] }
  | added (h : ∀ n ∈ d.children.getLast?, n.isText = false) :
      LineEnded d { children := d.children ++ [.text "\n"] }

/-- The document that is a line feed. -/
def Document.line : Document := { children := [.text "\n"] }

/-- A line feed behind a document ends it. -/
theorem Document.lineEnded_fuse (d : Document) : d.LineEnded (d.fuse .line) := by
  obtain ⟨children⟩ := d
  by_cases hlast : ∀ n ∈ children.getLast?, n.isText = false
  · have hfuse : Node.fuse children [.text "\n"] = children ++ [.text "\n"] :=
      Node.fuse_of_apart fun n hn m _ => Or.inl (hlast n hn)
    rw [Document.fuse, Document.line, hfuse]
    exact .added hlast
  · obtain ⟨n, hn, htext⟩ : ∃ n ∈ children.getLast?, n.isText = true := by simpa using hlast
    obtain ⟨ns, rfl⟩ := List.getLast?_eq_some_iff.mp hn
    obtain ⟨a, rfl⟩ : ∃ a, n = .text a := by cases n <;> simp_all [Node.isText]
    rw [Document.fuse, Document.line, Node.fuse_concat_text]
    exact .joined rfl

/-- The template of a document with a line feed behind it. -/
theorem Document.source_fuse_line (d : Document) : (d.fuse .line).source = d.source ++ "\n" := by
  have hline : Node.sourceAll [.text "\n"] = "\n" := by decide
  rw [Document.source, Document.fuse, Document.line, Node.sourceAll_fuse, hline, Document.source]

/-- **A line feed behind a regenerated template** stands behind its document. -/
theorem parse_source_append_line {source : String} {d : Document} (h : parse source = .ok d) :
    parse (d.source ++ "\n") = .ok (d.fuse .line) := by
  have hline : parse "\n" = .ok .line := by cbv
  rw [parse_append_eq (parse_source_of_parse h) (Or.inr (by decide)), hline]
  rfl

/-! ### What a run does -/

/-- Every text can be in a file. -/
theorem FileContents.text_toUTF8 (path source : String) :
    (FileContents.bytes source.toUTF8).text path = .ok source := by
  have hread : String.fromUTF8? source.toUTF8 = some source := by
    simp [String.fromUTF8?, String.fromUTF8, source.isValidUTF8]
  rw [FileContents.text, hread]

namespace CommandLine

variable (filter : Filter) {read : String → FileContents} {o : Options} {v : View} {source : String}

/-- What a run has to work on: the view that its options name, and the text of the file under its
path. -/
structure Job (read : String → FileContents) (o : Options) (v : View) (source : String) : Prop where
  /-- The run is not about the names of the views. -/
  listFormats : o.listFormats = false
  /-- The format names the view. -/
  view : View.ofName (o.format.getD "source") = .ok v
  /-- The file can be read. -/
  text : (read (o.path.getD "")).text (o.path.getD "") = .ok source

/-- Whether there is a check does not belong to it. -/
theorem Job.setVerify (h : Job read o v source) (verify : Bool) :
    Job read { o with verify } v source :=
  ⟨h.listFormats, h.view, h.text⟩

/-- **A run with a view and a text at hand** shows the text. -/
theorem perform_eq_process (h : Job read o v source) :
    perform filter read o = process filter v o.verify (o.path.getD "") source := by
  simp only [perform, h.listFormats, h.view, h.text]
  rfl

/-- What was told before does not show in the output. -/
theorem showSource_congr (v : View) (source : String) (events events' : List Event) :
    (showSource filter events v source).stdout = (showSource filter events' v source).stdout ∧
      (showSource filter events v source).code = (showSource filter events' v source).code := by
  simp only [showSource]
  cases v.render source with
  | ok text => exact ⟨rfl, rfl⟩
  | error f => exact ⟨rfl, rfl⟩

/-- **Templates are shown**, with a check or without one. -/
theorem process_of_parse (v : View) {d : Document} (h : parse source = .ok d) (verify : Bool)
    (path : String) :
    ∃ events, process filter v verify path source = showSource filter events v source := by
  cases verify with
  | false => exact ⟨[], rfl⟩
  | true =>
      refine ⟨Trace.verify source ++ [.verifiedFile path d.nodeCount], ?_⟩
      simp only [process, verifyFile, verifyRoundTrip_of_parse h, if_true]

/-- The check of a source that is no template ends the run. -/
theorem process_of_parse_error (v : View) {e : ParseError} (h : parse source = .error e)
    (path : String) :
    process filter v true path source =
      failed (Trace.lines filter (Trace.verify source)) (.parse e) := by
  simp only [process, verifyFile, verifyRoundTrip_of_parse_error h, if_true]

/-! ### Formatting -/

/-- What formatting prints of a template. -/
theorem perform_of_parse {d : Document} (hjob : Job read o .source source)
    (h : parse source = .ok d) :
    (perform filter read o).stdout = endLine d.source ∧ (perform filter read o).code = 0 := by
  obtain ⟨events, hevents⟩ := process_of_parse filter .source h o.verify (o.path.getD "")
  rw [perform_eq_process filter hjob, hevents]
  simp only [showSource, View.render, View.source, h, and_self]

/-- **Formatting is idempotent.** The template of a document is printed, closed by a line feed. It
is a template again, of the same document, or of this document with a line feed behind it where one
was added; and a run on it, whatever its path and whether with a check or not, prints it as it
is. -/
theorem format_idempotent {d : Document} (hjob : Job read o .source source)
    (h : parse source = .ok d) :
    let out := (perform filter read o).stdout
    (perform filter read o).code = 0 ∧
    (d.source.toList.getLast? = some '\n' → out = d.source ∧ parse out = .ok d) ∧
    (d.source.toList.getLast? ≠ some '\n' → out = d.source ++ "\n" ∧
      ∃ ended, parse out = .ok ended ∧ d.LineEnded ended) ∧
    ∀ filter' read' o', Job read' o' .source out →
      (perform filter' read' o').stdout = out ∧ (perform filter' read' o').code = 0 := by
  obtain ⟨hout, hcode⟩ := perform_of_parse filter hjob h
  simp only [hout]
  by_cases hends : d.source.toList.getLast? = some '\n'
  · have hline : endLine d.source = d.source := if_pos hends
    rw [hline]
    refine ⟨hcode, fun _ => ⟨rfl, parse_source_of_parse h⟩, fun hnot => absurd hends hnot, ?_⟩
    intro filter' read' o' hjob'
    obtain ⟨hout', hcode'⟩ := perform_of_parse filter' hjob' (parse_source_of_parse h)
    exact ⟨hout'.trans hline, hcode'⟩
  · have hline : endLine d.source = d.source ++ "\n" := if_neg hends
    have hparse := parse_source_append_line h
    rw [hline]
    refine ⟨hcode, fun hyes => absurd hyes hends, fun _ => ⟨rfl, _, hparse, d.lineEnded_fuse⟩, ?_⟩
    intro filter' read' o' hjob'
    obtain ⟨hout', hcode'⟩ := perform_of_parse filter' hjob' hparse
    rw [Document.source_fuse_line] at hout'
    exact ⟨hout'.trans (if_pos (by simp)), hcode'⟩

/-- A loop at the end, behind an unusual spelling: the line feed is a text of its own, and stays. -/
theorem format_idempotent_loop :
    let read : String → FileContents := fun path =>
      .bytes (if path = "a" then "\x7b$for i 1 2$\x7d\x7b$End$\x7d"
        else "\x7b$FOR i 1 2 $\x7d\x7b$END$\x7d\n").toUTF8
    (perform (.ofLevel .debug) read { path := some "a", verify := true }).stdout =
        "\x7b$FOR i 1 2 $\x7d\x7b$END$\x7d\n" ∧
      (perform (.ofLevel .warn) read { path := some "b" }).stdout =
        "\x7b$FOR i 1 2 $\x7d\x7b$END$\x7d\n" := by
  intro read
  obtain ⟨d, hparse, hsource⟩ : ∃ d, parse "\x7b$for i 1 2$\x7d\x7b$End$\x7d" = .ok d ∧
      d.source = "\x7b$FOR i 1 2 $\x7d\x7b$END$\x7d" := by
    exact ⟨_, by cbv, by cbv⟩
  have hjob : Job read { path := some "a", verify := true } .source
      "\x7b$for i 1 2$\x7d\x7b$End$\x7d" := ⟨rfl, by decide, FileContents.text_toUTF8 _ _⟩
  obtain ⟨-, -, hadded, hagain⟩ := format_idempotent (.ofLevel .debug) hjob hparse
  rw [hsource] at hadded
  have hout := (hadded (by decide)).1
  rw [hout] at hagain
  exact ⟨hout, (hagain (.ofLevel .warn) read { path := some "b" }
    ⟨rfl, by decide, FileContents.text_toUTF8 _ _⟩).1⟩

/-! ### Checking -/

/-- A source that is no template is not shown, unless it is its tokens that are asked for. -/
theorem showSource_of_parse_error {name : String} {e : ParseError}
    (hview : View.ofName name = .ok v) (hstage : v.stage ≠ .token) (h : parse source = .error e)
    (events : List Event) :
    (showSource filter events v source).stdout = "" ∧
      (showSource filter events v source).code = 1 := by
  have hshows := View.shows_parse (View.mem_available_of_ofName hview) hstage source
  have hrender : v.render source = .error (.parse e) := (hshows.error_iff _).mpr ⟨e, h, rfl⟩
  simp only [showSource, hrender, failed, and_self]

/-- **The check is transparent.** With it and without it a run prints the same and ends the same
way, unless tokens are asked for of a source that is no template. With it, a source that is no
template prints nothing, whatever is asked for, and its own error is reported, behind what is told
of the work. -/
theorem verify_transparent (hjob : Job read o v source) :
    let plain := perform filter read { o with verify := false }
    let checked := perform filter read { o with verify := true }
    ((v.stage ≠ .token ∨ ∃ d, parse source = .ok d) →
      checked.stdout = plain.stdout ∧ checked.code = plain.code) ∧
    ∀ e, parse source = .error e → checked.stdout = "" ∧ checked.code = 1 ∧
      checked.stderr = Trace.lines filter (Trace.verify source) ++ "Error: " ++ e.display ++
        "\n" := by
  simp only [perform_eq_process filter (hjob.setVerify true),
    perform_eq_process filter (hjob.setVerify false)]
  constructor
  · intro hcases
    cases hparse : parse source with
    | ok d =>
        obtain ⟨events, hchecked⟩ := process_of_parse filter v hparse true (o.path.getD "")
        rw [hchecked]
        exact showSource_congr filter v source events []
    | error e =>
        have hstage : v.stage ≠ .token := by
          rcases hcases with hstage | ⟨d, hd⟩
          · exact hstage
          · rw [hparse] at hd
            cases hd
        obtain ⟨hstdout, hcode⟩ := showSource_of_parse_error filter hjob.view hstage hparse []
        rw [process_of_parse_error filter v hparse]
        exact ⟨hstdout.symm, hcode.symm⟩
  · intro e hparse
    rw [process_of_parse_error filter v hparse]
    exact ⟨rfl, rfl, rfl⟩

/-- The tokens of a loop without its beginning are refused with the check, and those of a text are
shown with it as without it. -/
theorem verify_transparent_tokens :
    let read : String → FileContents := fun path =>
      .bytes (if path = "a" then "\x7b$END$\x7d" else "t").toUTF8
    let tokens : String → Options := fun path =>
      { path := some path, format := some "token-simple" }
    (perform (.ofLevel .warn) read { tokens "a" with verify := true }).stdout = "" ∧
      (perform (.ofLevel .warn) read { tokens "a" with verify := true }).code = 1 ∧
      (perform (.ofLevel .debug) read { tokens "b" with verify := true }).stdout =
        (perform (.ofLevel .debug) read (tokens "b")).stdout := by
  intro read tokens
  have hview : View.ofName "token-simple" = .ok ⟨.token, .simple⟩ := by decide
  have hleave : parse "\x7b$END$\x7d" = .error .unmatchedLeave := by cbv
  have htext : parse "t" = .ok { children := [.text "t"] } := by cbv
  have hjob : Job read (tokens "a") ⟨.token, .simple⟩ "\x7b$END$\x7d" :=
    ⟨rfl, hview, FileContents.text_toUTF8 _ _⟩
  have hjob' : Job read (tokens "b") ⟨.token, .simple⟩ "t" :=
    ⟨rfl, hview, FileContents.text_toUTF8 _ _⟩
  obtain ⟨hstdout, hcode, -⟩ := (verify_transparent (.ofLevel .warn) hjob).2 _ hleave
  obtain ⟨hsame, -⟩ := (verify_transparent (.ofLevel .debug) hjob').1 (Or.inr ⟨_, htext⟩)
  exact ⟨hstdout, hcode, hsame⟩

end CommandLine

end TagTemplate
