import Ceng.Proofs.Command.Ending
import Ceng.Proofs.Command.Item
import Ceng.Proofs.Files.Path

/-!
# Exit codes and files

The exit code of a run tells which of its steps failed, and a run that fails, or prints its
dump, leaves every file as it was. That writing cannot fail once the output file is open
rests on the characters of a dump, which come from the bytes of the source. Nothing is said
of command lines that are not accepted.
-/
namespace Ceng.Command

theorem ExitCode.number_eq_iff {c d : ExitCode} : c.number = d.number ↔ c = d := by
  cases c <;> cases d <;> decide

namespace Job

variable {job : Job} {tree after : Tree} {outcome : Outcome}

/-- An output file that a tree refuses is the user's mistake only if it is not there. -/
theorem exitCode_unopened {cause : FileError.Cause} {p : Path}
    (h : tree.openForWriting p = .error cause) (job : Job) (entries : List Entry) :
    (job.fail entries (.ofWriteError (.cannotOpen ⟨cause, p⟩))).exitCode =
      if cause = .notFound then .badArguments else .internalError := by
  have hc := Tree.cause_of_openForWriting h
  cases cause with
  | permissionDenied | other => simp [FileError.Cause.ofTree] at hc
  | notFound | notDirectory | isDirectory | nameTooLong => rfl

namespace Ends

/-- A job ends in one way only. -/
theorem unique {outcome' : Outcome} {after' : Tree} (h : job.Ends tree outcome after)
    (h' : job.Ends tree outcome' after') : outcome = outcome' ∧ after = after' :=
  Prod.mk.inj (h.execute_eq.symm.trans h'.execute_eq)

/-! What the exit code says of a job. -/

theorem success_iff (h : job.Ends tree outcome after) :
    outcome.exitCode = .success ↔ ∃ source tokens, job.Scans tree source tokens ∧
      (job.stdout = true ∨ ∃ l, tree.openForWriting job.settings.output = .ok l) := by
  constructor
  · intro hcode
    cases h with
    | unreadable | malformed => cases hcode
    | printed hs hout => exact ⟨_, _, hs, .inl hout⟩
    | unopened _ _ ho =>
      rw [exitCode_unopened ho] at hcode
      split at hcode <;> cases hcode
    | written hs _ ho => exact ⟨_, _, hs, .inr ⟨_, ho⟩⟩
  · rintro ⟨source, tokens, hs, hto⟩
    by_cases hout : job.stdout = true
    · rw [(h.unique (.printed hs hout)).1]
      rfl
    · obtain ⟨l, ho⟩ := hto.resolve_left hout
      rw [(h.unique (.written hs (Bool.eq_false_iff.2 hout) ho)).1]
      rfl

theorem malformedSource_iff (h : job.Ends tree outcome after) :
    outcome.exitCode = .malformedSource ↔ ∃ source e, job.Rejects tree source e := by
  constructor
  · intro hcode
    cases h with
    | malformed hr => exact ⟨_, _, hr⟩
    | unopened _ _ ho =>
      rw [exitCode_unopened ho] at hcode
      split at hcode <;> cases hcode
    | unreadable | printed | written => cases hcode
  · rintro ⟨source, e, hr⟩
    rw [(h.unique (.malformed hr)).1]
    rfl

theorem badArguments_iff (h : job.Ends tree outcome after) :
    outcome.exitCode = .badArguments ↔ (∃ e, job.available tree = .error e) ∨
      ∃ source tokens, job.Scans tree source tokens ∧ job.stdout = false ∧
        tree.openForWriting job.settings.output = .error .notFound := by
  constructor
  · intro hcode
    cases h with
    | unreadable ha => exact .inl ⟨_, ha⟩
    | @unopened _ _ cause hs hout ho =>
      rw [exitCode_unopened ho] at hcode
      by_cases hc : cause = .notFound
      · exact .inr ⟨_, _, hs, hout, hc ▸ ho⟩
      · rw [if_neg hc] at hcode
        cases hcode
    | malformed | printed | written => cases hcode
  · rintro (⟨e, ha⟩ | ⟨source, tokens, hs, hout, ho⟩)
    · rw [(h.unique (.unreadable ha)).1]
      rfl
    · rw [(h.unique (.unopened hs hout ho)).1, exitCode_unopened ho, if_pos rfl]

theorem internalError_iff (h : job.Ends tree outcome after) :
    outcome.exitCode = .internalError ↔ ∃ source tokens cause, job.Scans tree source tokens ∧
      job.stdout = false ∧ tree.openForWriting job.settings.output = .error cause ∧
        cause ≠ .notFound := by
  constructor
  · intro hcode
    cases h with
    | @unopened _ _ cause hs hout ho =>
      rw [exitCode_unopened ho] at hcode
      refine ⟨_, _, cause, hs, hout, ho, fun hc => ?_⟩
      rw [if_pos hc] at hcode
      cases hcode
    | unreadable | malformed | printed | written => cases hcode
  · rintro ⟨source, tokens, cause, hs, hout, ho, hc⟩
    rw [(h.unique (.unopened hs hout ho)).1, exitCode_unopened ho, if_neg hc]

/-! What is left of the tree. -/

theorem after_eq (h : job.Ends tree outcome after)
    (hkeep : outcome.exitCode ≠ .success ∨ job.stdout = true) : after = tree := by
  cases h with
  | written _ hout _ =>
    rcases hkeep with hcode | hprint
    · exact absurd rfl hcode
    · rw [hout] at hprint
      cases hprint
  | unreadable | malformed | printed | unopened => rfl

theorem after_of_written (h : job.Ends tree outcome after) {source : Bytes}
    {tokens : List Token} {l : Location} (hs : job.Scans tree source tokens)
    (hout : job.stdout = false) (ho : tree.openForWriting job.settings.output = .ok l) :
    ∃ bytes, Latin1.encode (dump tokens) = .ok bytes ∧
      after.read job.settings.output = .ok bytes ∧ after.node? l = some (.file bytes) ∧
      ∀ l' ≠ l, after.node? l' = tree.node? l' := by
  rw [(h.unique (.written hs hout ho)).2]
  exact ⟨_, encode_dump_of_scan hs.scan, Tree.read_set_of_openForWriting ho _,
    Tree.node?_set_self tree (Tree.ne_nil_of_openForWriting ho) _,
    fun _ hne => Tree.node?_set_of_ne tree hne _⟩

/-- The message of a scan error is the last line on standard error, and nothing else is. -/
theorem endsWithLine_stderr_iff (h : job.Ends tree outcome after) {source : Bytes}
    {e : LexicalError} (hr : job.Rejects tree source e) (line : List Char) :
    EndsWithLine outcome.output.stderr line ↔ line = e.message.toList := by
  have hreport : (Failure.malformed e.diagnostic).report job.settings.verbose =
      [.failure (.malformed e.diagnostic)] := by
    cases job.settings.verbose <;> rfl
  have hlast : EndsWithLine outcome.output.stderr e.message.toList := by
    rw [(h.unique (.malformed hr)).1, fail, hreport]
    exact endsWithLine_failure (f := .malformed e.diagnostic) (e.not_mem_message (by decide))
      (e.not_mem_message (by decide))
  exact ⟨fun hline => hline.unique hlast, fun heq => heq ▸ hlast⟩

end Ends
end Job

/-- An accepted command line does the job that its arguments ask for. -/
theorem Spells.exists_ending {line : Line} {tree : Tree} {arguments : List String}
    {items : List Item} (hspells : Spells arguments items) (h : line.Accepted tree arguments)
    (env : Environment) : ∃ outcome after, (Job.ofItems items env).Ends tree outcome after ∧
      runOnTree tree env arguments = (outcome.output, after) := by
  rw [← hspells.job_eq h.read env]
  exact h.exists_ending env

/-- The exit code of an accepted command line: zero if the source is there, scans, and its
dump goes where it should; one with the message as the last line if the source is
malformed; two if a file is not there to be read, or the way to the output file is missing;
three if the output file cannot be opened for any other reason. Only a run that writes its
dump changes a file, and only that one. -/
theorem runOnTree_outcome {line : Line} {tree after : Tree} {arguments : List String}
    {items : List Item} {env : Environment} {job : Job} {output : Output}
    (h : line.Accepted tree arguments) (hspells : Spells arguments items)
    (hjob : Job.ofItems items env = job) (hrun : runOnTree tree env arguments = (output, after)) :
    (output.exitCode.number = 0 ↔ ∃ source tokens, job.Scans tree source tokens ∧
      (job.stdout = true ∨ ∃ l, tree.openForWriting job.settings.output = .ok l)) ∧
    (output.exitCode.number = 1 ↔ ∃ source e, job.Rejects tree source e) ∧
    (∀ source e, job.Rejects tree source e →
      ∀ text, EndsWithLine output.stderr text ↔ text =
        ("lexical error: " ++ e.fault.detail ++ " [line: " ++ e.line.repr ++ "]").toList) ∧
    (output.exitCode.number = 2 ↔ (∃ e, job.available tree = .error e) ∨
      ∃ source tokens, job.Scans tree source tokens ∧ job.stdout = false ∧
        tree.openForWriting job.settings.output = .error .notFound) ∧
    (output.exitCode.number = 3 ↔ ∃ source tokens cause, job.Scans tree source tokens ∧
      job.stdout = false ∧ tree.openForWriting job.settings.output = .error cause ∧
        cause ≠ .notFound) ∧
    (output.exitCode.number ≠ 0 ∨ job.stdout = true → after = tree) ∧
    ∀ source tokens l, job.Scans tree source tokens → job.stdout = false →
      tree.openForWriting job.settings.output = .ok l →
      ∃ bytes, Latin1.encode (dump tokens) = .ok bytes ∧
        after.read job.settings.output = .ok bytes ∧ after.node? l = some (.file bytes) ∧
        ∀ l' ≠ l, after.node? l' = tree.node? l' := by
  subst hjob
  obtain ⟨outcome, left, hends, heq⟩ := hspells.exists_ending h env
  obtain ⟨rfl, rfl⟩ := Prod.mk.inj (hrun.symm.trans heq)
  refine ⟨?_, ?_, fun _ e hr => e.message_eq ▸ hends.endsWithLine_stderr_iff hr, ?_, ?_,
    fun hkeep => ?_,
    fun _ _ _ hs hout ho => hends.after_of_written hs hout ho⟩
  · exact (ExitCode.number_eq_iff (d := .success)).trans hends.success_iff
  · exact (ExitCode.number_eq_iff (d := .malformedSource)).trans hends.malformedSource_iff
  · exact (ExitCode.number_eq_iff (d := .badArguments)).trans hends.badArguments_iff
  · exact (ExitCode.number_eq_iff (d := .internalError)).trans hends.internalError_iff
  · refine hends.after_eq (hkeep.imp_left fun hcode hsuccess => hcode ?_)
    exact (ExitCode.number_eq_iff (d := .success)).2 hsuccess

/-- With one file as source and output, a source that ends in a string stays as it is, and
a single semicolon is replaced by its dump. -/
theorem runOnTree_onto_source :
    (runOnTree ⟨[(["p"], .file [34])], []⟩ ⟨none, none, none⟩
      ["p", "-o", "p"]).1.exitCode.number = 1 ∧
    EndsWithLine (runOnTree ⟨[(["p"], .file [34])], []⟩ ⟨none, none, none⟩
      ["p", "-o", "p"]).1.stderr "lexical error: string constant not terminated [line: 1]".toList ∧
    (runOnTree ⟨[(["p"], .file [34])], []⟩ ⟨none, none, none⟩ ["p", "-o", "p"]).2 =
      ⟨[(["p"], .file [34])], []⟩ ∧
    (runOnTree ⟨[(["p"], .file [59])], []⟩ ⟨none, none, none⟩
      ["p", "-o", "p"]).1.exitCode.number = 0 ∧
    ∃ bytes, Latin1.encode (dump [⟨.statementEnd, []⟩]) = .ok bytes ∧
      (runOnTree ⟨[(["p"], .file [59])], []⟩ ⟨none, none, none⟩ ["p", "-o", "p"]).2.node? ["p"] =
        some (.file bytes) := by
  have hpath : Path.ofText "p" = ⟨.current, ["p"]⟩ :=
    Path.ofText_of_not_mem (by decide) (by decide) (by decide)
  have hfile (content : Bytes) : Tree.isDirectory ⟨[(["p"], .file content)], []⟩ "p" = false := by
    rw [Tree.isDirectory, hpath]
    rfl
  have haccepted (content : Bytes) : Line.Accepted ⟨some "p", false, false, false, none, ["p"]⟩
      ⟨[(["p"], .file content)], []⟩ ["p", "-o", "p"] :=
    Line.accepted_iff.2 ⟨rfl, rfl, by simp [hfile], by simp [Line.source, hfile], rfl⟩
  have hspells : Spells ["p", "-o", "p"] [.file "p", .output "p"] :=
    .file rfl (.awaits .output_letter .done)
  have hjob : Job.ofItems [.file "p", .output "p"] ⟨none, none, none⟩ =
      ⟨⟨⟨.current, ["p"]⟩, ⟨.current, ["p"]⟩, false⟩, false, false⟩ := by
    rw [← hpath]
    rfl
  have hopen : Malformed .openString ['"'] := .string (by simp)
  have hend : Reads [';'] [.statementEnd] [] :=
    .piece trivial (Piece.endsBefore_nil _) rfl (.stop [])
  have hrejects : Job.Rejects ⟨⟨⟨.current, ["p"]⟩, ⟨.current, ["p"]⟩, false⟩, false, false⟩
      ⟨[(["p"], .file [34])], []⟩ [34] ⟨.openString, 1⟩ :=
    ⟨rfl, (Reads.stop _).scan_eq_error hopen⟩
  have hscans : Job.Scans ⟨⟨⟨.current, ["p"]⟩, ⟨.current, ["p"]⟩, false⟩, false, false⟩
      ⟨[(["p"], .file [59])], []⟩ [59] [⟨.statementEnd, []⟩] :=
    ⟨rfl, hend.scan_eq_ok⟩
  obtain ⟨-, hone, hlast, -, -, hkept, -⟩ :=
    runOnTree_outcome (haccepted [34]) hspells hjob rfl
  obtain ⟨hzero, -, -, -, -, -, hwritten⟩ :=
    runOnTree_outcome (haccepted [59]) hspells hjob rfl
  have hcode := hone.2 ⟨_, _, hrejects⟩
  refine ⟨hcode, (hlast _ _ hrejects _).2 (by decide), hkept (.inl (by rw [hcode]; decide)),
    hzero.2 ⟨_, _, hscans, .inr ⟨["p"], rfl⟩⟩, ?_⟩
  obtain ⟨bytes, hbytes, -, hnode, -⟩ := hwritten _ _ ["p"] hscans rfl rfl
  exact ⟨bytes, hbytes, hnode⟩

end Ceng.Command
