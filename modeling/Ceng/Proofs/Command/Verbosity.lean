import Ceng.Proofs.Command.Outcome
import Ceng.Proofs.Files.Path

/-!
# Verbosity

A verbose run does what the quiet run does and says more about it: log entries, and the
trace of an unexpected failure. All of this goes to standard error. It is told apart by
entry and not by line, as a file name in a log entry may hold newlines.
-/
namespace Ceng.Command

/-- Entries that only verbose runs make. -/
def Entry.isVerbose : Entry → Bool
  | .log _ | .trace => true
  | _ => false

/-- The outcome without what only verbose runs say. -/
def Outcome.quiet (o : Outcome) : Outcome :=
  ⟨o.exitCode, o.statusStream, o.entries.filter (!·.isVerbose)⟩

/-- The entries are this body, which has no trace in it, and a trace behind it if the body ends
with an unexpected failure. -/
structure Outcome.HasBody (o : Outcome) (body : List Entry) : Prop where
  trace_not_mem : Entry.trace ∉ body
  entries :
    (o.exitCode ≠ .internalError ∧ o.entries = body) ∨
      (o.exitCode = .internalError ∧ o.entries = body ++ [.trace] ∧
        ∃ before f, f.exitCode = .internalError ∧ body = before ++ [.failure f])

/-! ## Quiet jobs -/

namespace Job

/-- The job without verbosity. -/
def quiet (job : Job) : Job := { job with settings := { job.settings with verbose := false } }

variable {tree after : Tree} {outcome : Outcome} (job : Job)

theorem log_quiet (text : String) : job.quiet.log text = [] := rfl

theorem filter_log (text : String) : (job.log text).filter (!·.isVerbose) = [] := by
  unfold log
  split <;> rfl

theorem quiet_opening : job.opening.filter (!·.isVerbose) = job.quiet.opening := by
  rw [opening, opening, List.filter_append, filter_log, log_quiet]
  rfl

theorem quiet_beforeScan (source : Bytes) :
    (job.beforeScan source).filter (!·.isVerbose) = job.quiet.beforeScan source := by
  have hloaded : (job.loaded source).filter (!·.isVerbose) = job.quiet.loaded source := by
    unfold loaded
    by_cases h : job.demo = true
    · rw [if_pos h, if_pos (show job.quiet.demo = true from h)]
      rfl
    · rw [if_neg h, if_neg (show ¬ job.quiet.demo = true from h), List.filter_append, filter_log,
        log_quiet]
      rfl
  rw [beforeScan, List.filter_append, quiet_opening, hloaded]
  rfl

theorem quiet_afterScan (source : Bytes) :
    (job.afterScan source).filter (!·.isVerbose) = job.quiet.afterScan source := by
  rw [afterScan, List.filter_append, quiet_beforeScan, scanned, filter_log]
  rfl

theorem quiet_beforeWrite (source : Bytes) :
    (job.beforeWrite source).filter (!·.isVerbose) = job.quiet.beforeWrite source := by
  rw [beforeWrite, List.filter_append, quiet_afterScan]
  rfl

theorem quiet_fail (entries : List Entry) (f : Failure) :
    (job.fail entries f).quiet = job.quiet.fail (entries.filter (!·.isVerbose)) f := by
  have hreport : (f.report job.settings.verbose).filter (!·.isVerbose) = f.report false := by
    unfold Failure.report
    split <;> rfl
  simp only [fail, Outcome.quiet, List.filter_append, hreport]
  rfl

theorem quiet_printed (entries : List Entry) (tokens : List Token) :
    (job.printed entries tokens).quiet =
      job.quiet.printed (entries.filter (!·.isVerbose)) tokens := by
  simp only [printed, succeed, Outcome.quiet, List.filter_append]
  rfl

theorem quiet_written (entries : List Entry) (count : Nat) :
    (job.written entries (.ok count)).quiet =
      job.quiet.written (entries.filter (!·.isVerbose)) (.ok count) := by
  simp only [written, succeed, Outcome.quiet, List.filter_append, wrote, filter_log]
  rfl

variable {job}

/-- Without verbosity a job ends in the same way. -/
theorem Ends.quiet (h : job.Ends tree outcome after) : job.quiet.Ends tree outcome.quiet after := by
  cases h with
  | unreadable ha =>
    rw [quiet_fail, quiet_opening]
    exact .unreadable ha
  | malformed hr =>
    rw [quiet_fail, quiet_beforeScan]
    exact .malformed ⟨hr.available, hr.scan⟩
  | printed hs hout =>
    rw [quiet_printed, quiet_afterScan]
    exact .printed ⟨hs.available, hs.scan⟩ hout
  | unopened hs hout ho =>
    rw [quiet_fail, quiet_beforeWrite]
    exact .unopened ⟨hs.available, hs.scan⟩ hout ho
  | written hs hout ho =>
    rw [quiet_written, quiet_beforeWrite]
    exact .written ⟨hs.available, hs.scan⟩ hout ho

/-! ## Where the trace stands -/

theorem trace_not_mem {entries : List Entry} (h : entries.all Entry.isProgress = true) :
    Entry.trace ∉ entries := fun hm => by
  cases List.all_eq_true.1 h _ hm

theorem fail_hasBody {job : Job} (hv : job.settings.verbose = true) {entries : List Entry}
    (h : entries.all Entry.isProgress = true) (f : Failure) :
    (job.fail entries f).HasBody (entries ++ [.failure f]) := by
  refine ⟨by simpa using trace_not_mem h, ?_⟩
  by_cases hcode : f.exitCode = .internalError
  · exact .inr ⟨hcode, by simp [fail, Failure.report, hv, hcode], entries, f, hcode, rfl⟩
  · exact .inl ⟨hcode, by simp [fail, Failure.report, hcode]⟩

/-- A verbose job makes a trace only of an unexpected failure, and right after it. -/
theorem Ends.exists_hasBody (h : job.Ends tree outcome after)
    (hv : job.settings.verbose = true) : ∃ body, outcome.HasBody body := by
  cases h with
  | unreadable => exact ⟨_, fail_hasBody hv job.all_isProgress_opening _⟩
  | malformed => exact ⟨_, fail_hasBody hv (job.all_isProgress_beforeScan _) _⟩
  | @printed source tokens =>
    have hscanned := trace_not_mem (job.all_isProgress_afterScan source)
    refine ⟨_, ?_, .inl ⟨ExitCode.noConfusion, rfl⟩⟩
    simpa [Job.printed, succeed, done] using hscanned
  | unopened => exact ⟨_, fail_hasBody hv (job.all_isProgress_beforeWrite _) _⟩
  | @written source tokens =>
    have hwriting := trace_not_mem (job.all_isProgress_beforeWrite source)
    have hwrote := trace_not_mem (job.all_isProgress_log
      ("Wrote " ++ tokens.length.repr ++ " tokens to " ++ job.settings.output.text))
    refine ⟨_, ?_, .inl ⟨ExitCode.noConfusion, rfl⟩⟩
    simpa [Job.written, succeed, done, wrote] using ⟨hwriting, hwrote⟩

end Job

/-! ## What is shown -/

/-- The second text is the first with log entries put between whole lines of it. -/
inductive LogInserted : List Char → List Char → Prop
  | nil : LogInserted [] []
  | keep {quiet verbose text : List Char} : WholeLines text → LogInserted quiet verbose →
      LogInserted (text ++ quiet) (text ++ verbose)
  | insert {quiet verbose : List Char} (text : String) : LogInserted quiet verbose →
      LogInserted quiet ("DEBUG: ".toList ++ text.toList ++ ['\n'] ++ verbose)

/-- Nothing that only verbose runs say is shown on standard output. -/
theorem shown_quiet_standardOutput (status : Stream) (entries : List Entry) :
    shown status .standardOutput (entries.filter (!·.isVerbose)) =
      shown status .standardOutput entries := by
  unfold shown
  rw [List.filter_filter]
  refine congrArg _ (List.filter_congr fun entry _ => ?_)
  cases entry with
  | log | trace => rfl
  | status | dump | failure => exact Bool.and_true _

theorem logInserted_shown (status : Stream) {entries : List Entry} (h : Entry.trace ∉ entries) :
    LogInserted (shown status .standardError (entries.filter (!·.isVerbose)))
      (shown status .standardError entries) := by
  induction entries with
  | nil => exact .nil
  | cons entry entries ih =>
    have hrest := ih fun hm => h (List.mem_cons_of_mem _ hm)
    by_cases hentry : entry.isVerbose = true
    · cases entry with
      | log text => exact .insert text hrest
      | trace => exact absurd List.mem_cons_self h
      | status | dump | failure => cases hentry
    · rw [List.filter_cons_of_pos (by simpa using hentry)]
      have hcons (more : List Entry) : shown status .standardError (entry :: more) =
          shown status .standardError [entry] ++ shown status .standardError more :=
        shown_append status .standardError [entry] more
      rw [hcons entries, hcons (entries.filter _)]
      exact .keep (wholeLines_shown_standardError status [entry]) hrest

/-- A failure that a quiet job and its verbose twin report in the last line before any trace. -/
theorem failure_suffix {status : Stream} (before : List Entry) {f : Failure}
    (hf : f.exitCode = .internalError) :
    plainLine ("Internal error: " ++ f.message) <:+
      shown status .standardError (before ++ [.failure f]) := by
  have hline : f.line = "Internal error: " ++ f.message := by
    rw [Failure.line, hf]
  have hstream : (Entry.failure f).stream status = .standardError := rfl
  rw [shown_append, shown_of_stream_eq hstream, ← hline]
  exact List.suffix_append _ _

/-- A run with verbosity and a run for the same job without it exit with the same code, print
the same and leave the same files. On standard error the verbose run says what the quiet one
says, with log entries in between, and a trace at the end if what went wrong is not the
user's mistake. -/
theorem runOnTree_verbose {line line' : Line} {tree after after' : Tree}
    {arguments arguments' : List String} {items items' : List Item} {env env' : Environment}
    {job : Job} {loud quiet : Output} (h : line.Accepted tree arguments)
    (h' : line'.Accepted tree arguments') (hspells : Spells arguments items)
    (hspells' : Spells arguments' items') (hjob : Job.ofItems items env = job)
    (hjob' : Job.ofItems items' env' = job.quiet) (hverbose : job.settings.verbose = true)
    (hrun : runOnTree tree env arguments = (loud, after))
    (hrun' : runOnTree tree env' arguments' = (quiet, after')) :
    quiet.exitCode = loud.exitCode ∧ quiet.stdout = loud.stdout ∧ after' = after ∧
    (∃ outcome, job.execute treeFiles tree = (outcome, after) ∧
      loud = outcome.output ∧ quiet = outcome.quiet.output ∧
      ∀ text, Entry.log text ∉ outcome.quiet.entries) ∧
    ∃ body, LogInserted quiet.stderr body ∧
      ((loud.exitCode ≠ .internalError ∧ loud.stderr = body) ∨
        (loud.exitCode = .internalError ∧ loud.stderr = body ++ "<traceback>\n".toList ∧
          ∃ message, plainLine ("Internal error: " ++ message) <:+ body ∧
            plainLine ("Internal error: " ++ message) <:+ quiet.stderr)) := by
  subst hjob
  obtain ⟨outcome, left, hends, heq⟩ := hspells.exists_ending h env
  obtain ⟨rfl, rfl⟩ := Prod.mk.inj (hrun.symm.trans heq)
  obtain ⟨outcome', left', hends', heq'⟩ := hspells'.exists_ending h' env'
  rw [hjob'] at hends'
  obtain ⟨rfl, rfl⟩ := Prod.mk.inj (hrun'.symm.trans heq')
  obtain ⟨rfl, rfl⟩ := hends'.unique hends.quiet
  have hstderr : outcome.quiet.output.stderr =
      shown outcome.statusStream .standardError (outcome.entries.filter (!·.isVerbose)) := rfl
  refine ⟨rfl, shown_quiet_standardOutput _ _, rfl,
    ⟨outcome, hends.execute_eq, rfl, rfl, by simp [Outcome.quiet, Entry.isVerbose]⟩, ?_⟩
  obtain ⟨body, htrace, ⟨hcode, hentries⟩ | ⟨hcode, hentries, before, f, hf, rfl⟩⟩ :=
    hends.exists_hasBody hverbose
  · rw [hstderr, hentries]
    exact ⟨_, logInserted_shown outcome.statusStream htrace, .inl ⟨hcode, by rw [← hentries]; rfl⟩⟩
  · have hfilter : (before ++ [Entry.failure f, Entry.trace]).filter (!·.isVerbose) =
        (before ++ [Entry.failure f]).filter (!·.isVerbose) := by
      simp [Entry.isVerbose]
    rw [hstderr, hentries, List.append_assoc, List.singleton_append, hfilter]
    refine ⟨_, logInserted_shown outcome.statusStream htrace, .inr ⟨hcode, ?_, f.message,
      failure_suffix before hf, ?_⟩⟩
    · have hstderr' : outcome.output.stderr =
          shown outcome.statusStream .standardError outcome.entries := rfl
      have htrace' : Entry.trace.stream outcome.statusStream = .standardError := rfl
      rw [hstderr', hentries, shown_append, shown_of_stream_eq htrace']
      rfl
    · rw [List.filter_append]
      exact failure_suffix _ hf

/-- A verbose run and a quiet run that both write to a directory end with the same code, and
only the verbose one ends with a trace. -/
theorem runOnTree_verbose_onto_directory :
    (runOnTree ⟨[(["p"], .file [59]), (["d"], .directory)], []⟩ ⟨none, some "d", none⟩
      ["p"]).1.exitCode = .internalError ∧
    ∃ body,
      LogInserted (runOnTree ⟨[(["p"], .file [59]), (["d"], .directory)], []⟩
        ⟨none, some "d", none⟩ ["p"]).1.stderr body ∧
      (runOnTree ⟨[(["p"], .file [59]), (["d"], .directory)], []⟩ ⟨none, some "d", none⟩
        ["-v", "p"]).1.stderr = body ++ "<traceback>\n".toList := by
  have hp : Path.ofText "p" = ⟨.current, ["p"]⟩ :=
    Path.ofText_of_not_mem (by decide) (by decide) (by decide)
  have hd : Path.ofText "d" = ⟨.current, ["d"]⟩ :=
    Path.ofText_of_not_mem (by decide) (by decide) (by decide)
  have haccepted : Line.Accepted ⟨none, false, false, true, none, ["p"]⟩
      ⟨[(["p"], .file [59]), (["d"], .directory)], []⟩ ["-v", "p"] := by
    have hfile : Tree.isDirectory ⟨[(["p"], .file [59]), (["d"], .directory)], []⟩ "p" =
        false := by
      rw [Tree.isDirectory, hp]
      rfl
    exact Line.accepted_iff.2 ⟨rfl, rfl, by simp, by simp [Line.source, hfile], rfl⟩
  have haccepted' : Line.Accepted ⟨none, false, false, false, none, ["p"]⟩
      ⟨[(["p"], .file [59]), (["d"], .directory)], []⟩ ["p"] := haccepted.congr rfl rfl rfl rfl
  have hspells' : Spells ["p"] [.file "p"] := .file rfl .done
  have hoption : Options "-v".toList [.switch .verbose] false :=
    .letters (List.cons_ne_nil _ _) (.verbose .done)
  have hspells : Spells ["-v", "p"] [.switch .verbose, .file "p"] := .options hoption hspells'
  have hjob : Job.ofItems [.switch .verbose, .file "p"] ⟨none, some "d", none⟩ =
      ⟨⟨⟨.current, ["p"]⟩, ⟨.current, ["d"]⟩, true⟩, false, false⟩ := by
    rw [← hp, ← hd]
    rfl
  have hjob' : Job.ofItems [.file "p"] ⟨none, some "d", none⟩ =
      ⟨⟨⟨.current, ["p"]⟩, ⟨.current, ["d"]⟩, false⟩, false, false⟩ := by
    rw [← hp, ← hd]
    rfl
  have hreads : Reads [';'] [.statementEnd] [] :=
    .piece trivial (Piece.endsBefore_nil _) rfl (.stop [])
  have hscan : scan (Latin1.decode [59]) = .ok [⟨.statementEnd, []⟩] := hreads.scan_eq_ok
  have hends := @Job.Ends.unopened ⟨⟨⟨.current, ["p"]⟩, ⟨.current, ["d"]⟩, true⟩, false, false⟩
    ⟨[(["p"], .file [59]), (["d"], .directory)], []⟩ [59] _ .isDirectory ⟨rfl, hscan⟩ rfl rfl
  have hcode : (runOnTree ⟨[(["p"], .file [59]), (["d"], .directory)], []⟩ ⟨none, some "d", none⟩
      ["-v", "p"]).1.exitCode = .internalError := by
    rw [haccepted.runOnTree_eq, hspells.job_eq haccepted.read, hjob, hends.execute_eq]
    rfl
  obtain ⟨hsame, -, -, -, body, hbody, ⟨hother, -⟩ | ⟨-, htext, -⟩⟩ :=
    runOnTree_verbose haccepted haccepted' hspells hspells' hjob hjob' rfl rfl rfl
  · exact absurd hcode hother
  · exact ⟨hsame.trans hcode, body, hbody, htext⟩

end Ceng.Command
