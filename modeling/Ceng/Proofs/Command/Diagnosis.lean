import Ceng.Proofs.Command.Outcome
import Ceng.Proofs.Fault.Reading
import Ceng.Proofs.Files.Path

/-!
# What a failed run says of its source

A run that exits with one has scanned a source and stopped at a lexical error, and the last
line on its standard error is the message of that error. Since messages can be read back,
that line is enough to know the error. Lines before it may be anything: a file name can
hold newlines and imitate a message.
-/
namespace Ceng.Command

/-- Of all command lines, only accepted ones can find a source malformed. -/
theorem exists_accepted {tree : Tree} {env : Environment} {arguments : List String}
    (h : (runOnTree tree env arguments).1.exitCode = .malformedSource) :
    ∃ line : Line, line.Accepted tree arguments := by
  unfold runOnTree run at h
  cases hread : Line.ofArguments arguments with
  | error e =>
    rw [hread] at h
    cases h
  | ok line =>
    rw [hread] at h
    dsimp only at h
    cases hrequest : line.request with
    | some request =>
      rw [hrequest] at h
      cases h
    | none =>
      cases hcheck : (line.check treeFiles tree).1 with
      | none => exact ⟨line, hread, hrequest, hcheck⟩
      | some e =>
        have hpair : line.check treeFiles tree = (some e, tree) :=
          Prod.ext hcheck (by rw [line.check_treeFiles])
        rw [hrequest] at h
        simp only [bind, StateT.bind, hpair] at h
        cases h

/-- What a run that exits with one has scanned, and what it says last. -/
theorem exists_rejects {tree : Tree} {env : Environment} {arguments : List String}
    (h : (runOnTree tree env arguments).1.exitCode = .malformedSource) :
    ∃ (line : Line) (items : List Item) (source : Bytes) (e : LexicalError),
      line.Accepted tree arguments ∧ Spells arguments items ∧
      (Job.ofItems items env).Rejects tree source e ∧
      ∀ text, EndsWithLine (runOnTree tree env arguments).1.stderr text ↔
        text = e.message.toList := by
  obtain ⟨line, hline⟩ := exists_accepted h
  obtain ⟨items, hspells⟩ := exists_spells_of_readFrom hline.read
  obtain ⟨outcome, after, hends, hrun⟩ := hspells.exists_ending hline env
  rw [hrun] at h ⊢
  obtain ⟨source, e, hr⟩ := hends.malformedSource_iff.1 h
  exact ⟨line, items, source, e, hline, hspells, hr, hends.endsWithLine_stderr_iff hr⟩

/-- A message is cut at its front, at its last mark and at its last bracket into the detail
and the decimal line, whatever they are, so different diagnostics have different messages.
Errors of scans with one message are the same fault at the same line: what is malformed, and
the line at which it was noticed. Whoever reads the last line of standard error after exit
code one gets the error that the scan stopped with. -/
theorem messages_tell_errors_apart :
    (∀ d : Diagnostic, ∃ body,
      d.message.toList = "lexical error: ".toList ++ (body ++ [']']) ∧
      (∀ before after, LastCut " [line: ".toList body before after ↔
        before = d.detail.toList ∧ after = d.line.repr.toList) ∧
      Diagnostic.ofMessage? d.message = some d) ∧
    (∀ d d' : Diagnostic, d.message = d'.message ↔ d.detail = d'.detail ∧ d.line = d'.line) ∧
    (∀ source e, scan source = .error e →
      (∃ pieces rest, Reads source pieces rest ∧ Malformed e.fault rest ∧
        e.line = 1 + linesOf pieces + e.fault.lines rest) ∧
      ∀ source' e', scan source' = .error e' →
        (e.message = e'.message ↔ e.fault = e'.fault ∧ e.line = e'.line)) ∧
    ∀ tree env arguments output after, runOnTree tree env arguments = (output, after) →
      output.exitCode.number = 1 →
      ∃ (line : Line) (items : List Item) (source : Bytes) (e : LexicalError),
        line.Accepted tree arguments ∧ Spells arguments items ∧
        (Job.ofItems items env).Rejects tree source e ∧
        (∃ text, EndsWithLine output.stderr text) ∧
        ∀ text, EndsWithLine output.stderr text →
          LexicalError.ofMessage? (String.ofList text) = some e := by
  refine ⟨fun d => ?_, fun d d' => ?_, fun source e h => ⟨?_, fun _ e' _ => ?_⟩, ?_⟩
  · refine ⟨d.detail.toList ++ (Diagnostic.lineMark ++ d.line.repr.toList), ?_,
      fun _ _ => d.lastCut_iff, d.ofMessage?_message⟩
    rw [d.toList_message, List.append_assoc, List.append_assoc]
    rfl
  · rw [Diagnostic.message_eq_iff, Diagnostic.mk.injEq]
  · obtain ⟨fault, line⟩ := e
    exact reads_of_scan_eq_error h
  · rw [LexicalError.message_eq_iff, LexicalError.mk.injEq]
  · intro tree env arguments output after hrun hcode
    have hexit : (runOnTree tree env arguments).1.exitCode = .malformedSource := by
      rw [hrun]
      exact (ExitCode.number_eq_iff (d := .malformedSource)).1 hcode
    obtain ⟨line, items, source, e, hline, hspells, hr, hlast⟩ := exists_rejects hexit
    rw [hrun] at hlast
    refine ⟨line, items, source, e, hline, hspells, hr, ⟨_, (hlast _).2 rfl⟩, fun text htext => ?_⟩
    rw [(hlast text).1 htext, String.ofList_toList]
    exact e.ofMessage?_message

/-- The file is named so that the line on its loading goes on with a message of its own, and
the last line still tells that its string is open. -/
theorem messages_tell_errors_apart_under_imitation :
    Diagnostic.ofMessage? (Diagnostic.message ⟨"x [line: 3]", -2 ^ 70⟩) =
      some ⟨"x [line: 3]", -2 ^ 70⟩ ∧
    Diagnostic.message ⟨"x [line: 3]", 3⟩ ≠ Diagnostic.message ⟨"x", 3⟩ ∧
    scan ['"'] = .error ⟨.openString, 1⟩ ∧ scan ['/', '*'] = .error ⟨.openComment, 1⟩ ∧
    LexicalError.message ⟨.openString, 1⟩ ≠ LexicalError.message ⟨.openComment, 1⟩ ∧
    (runOnTree ⟨[(["p\nlexical error: x [line: 3]"], .file [34])], []⟩ ⟨none, none, none⟩
      ["p\nlexical error: x [line: 3]"]).1.exitCode.number = 1 ∧
    ∀ text, EndsWithLine (runOnTree ⟨[(["p\nlexical error: x [line: 3]"], .file [34])], []⟩
        ⟨none, none, none⟩ ["p\nlexical error: x [line: 3]"]).1.stderr text →
      LexicalError.ofMessage? (String.ofList text) = some ⟨.openString, 1⟩ := by
  have hstring : Malformed .openString ['"'] := .string List.not_mem_nil
  have hcomment : Malformed .openComment ['/', '*'] :=
    .comment fun h => absurd h.length_le (by decide)
  have hscan : scan ['"'] = .error ⟨.openString, 1⟩ := (Reads.stop _).scan_eq_error hstring
  have hscan' : scan ['/', '*'] = .error ⟨.openComment, 1⟩ :=
    (Reads.stop _).scan_eq_error hcomment
  have hpath : Path.ofText "p\nlexical error: x [line: 3]" =
      ⟨.current, ["p\nlexical error: x [line: 3]"]⟩ :=
    Path.ofText_of_not_mem (by decide) (by decide) (by decide)
  have hfile : Tree.isDirectory ⟨[(["p\nlexical error: x [line: 3]"], .file [34])], []⟩
      "p\nlexical error: x [line: 3]" = false := by
    rw [Tree.isDirectory, hpath]
    rfl
  have haccepted : Line.Accepted
      ⟨none, false, false, false, none, ["p\nlexical error: x [line: 3]"]⟩
      ⟨[(["p\nlexical error: x [line: 3]"], .file [34])], []⟩
      ["p\nlexical error: x [line: 3]"] :=
    Line.accepted_iff.2 ⟨rfl, rfl, by simp, by simp [Line.source, hfile], rfl⟩
  have hrejects : (Line.job ⟨none, false, false, false, none, ["p\nlexical error: x [line: 3]"]⟩
      ⟨none, none, none⟩).Rejects ⟨[(["p\nlexical error: x [line: 3]"], .file [34])], []⟩ [34]
        ⟨.openString, 1⟩ := by
    refine ⟨?_, hscan⟩
    have hload : Tree.load ⟨[(["p\nlexical error: x [line: 3]"], .file [34])], []⟩
        (Path.ofText "p\nlexical error: x [line: 3]") = .ok [34] := by
      rw [hpath]
      rfl
    exact hload
  obtain ⟨outcome, after, hends, hrun⟩ := haccepted.exists_ending ⟨none, none, none⟩
  have hcode : outcome.output.exitCode.number = 1 :=
    ExitCode.number_eq_iff.2 (hends.malformedSource_iff.2 ⟨_, _, hrejects⟩)
  rw [hrun]
  obtain ⟨hdecode, hdiagnostics, hscans, hruns⟩ := messages_tell_errors_apart
  refine ⟨?_, fun h => ?_, hscan, hscan', fun h => ?_, hcode, fun text htext => ?_⟩
  · obtain ⟨-, -, -, hread⟩ := hdecode ⟨"x [line: 3]", -2 ^ 70⟩
    exact hread
  · exact absurd ((hdiagnostics _ _).1 h).1 (by decide)
  · cases (((hscans _ _ hscan).2 _ _ hscan').1 h).1
  · obtain ⟨line, items, source, e, hline, hspells, hr, -, hread⟩ := hruns _ _ _ _ _ hrun hcode
    obtain rfl := Except.ok.inj (haccepted.read.symm.trans hline.read)
    rw [← hspells.job_eq hline.read] at hr
    obtain rfl := Except.ok.inj (hrejects.available.symm.trans hr.available)
    obtain rfl := Except.error.inj (hscan.symm.trans hr.scan)
    exact hread text htext

end Ceng.Command
