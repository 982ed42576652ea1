import Ceng.Proofs.Command.Outcome
import Ceng.Proofs.Files.Path
import Ceng.Proofs.Scan.Strings

/-!
# Printed and written dumps

A dump that is printed is the dump that is written, with a newline after it unless there is
nothing in it. A run that prints its dump says all else that it says on standard error.
-/
namespace Ceng.Command

/-! ## Entries of a run that prints -/

def Entry.isDump : Entry → Bool
  | .dump _ => true
  | _ => false

/-- Where status lines are shown on standard error, standard output is for dumps. -/
theorem shown_standardOutput (entries : List Entry) :
    shown .standardError .standardOutput entries =
      (entries.filter Entry.isDump).flatMap Entry.text := by
  have hstream (entry : Entry) :
      (entry.stream .standardError == .standardOutput) = entry.isDump := by
    cases entry <;> rfl
  simp only [shown, hstream]

theorem shown_standardError (entries : List Entry) :
    shown .standardError .standardError entries =
      (entries.filter (!·.isDump)).flatMap Entry.text := by
  have hstream (entry : Entry) :
      (entry.stream .standardError == .standardError) = !entry.isDump := by
    cases entry <;> rfl
  simp only [shown, hstream]

theorem filter_isDump_eq_nil {entries : List Entry} (h : entries.all Entry.isProgress = true) :
    entries.filter Entry.isDump = [] := by
  refine List.filter_eq_nil_iff.2 fun entry hm => ?_
  have hentry := List.all_eq_true.1 h entry hm
  cases entry with
  | status | log => exact Bool.false_ne_true
  | dump | failure | trace => cases hentry

namespace Job

variable {job : Job} {tree after after' : Tree} {outcome outcome' : Outcome}

theorem statusStream_of_stdout (h : job.stdout = true) : job.statusStream = .standardError :=
  if_pos h

/-- A job that fails before it has anything to print shows nothing on standard output. -/
theorem stdout_fail (h : job.stdout = true) {entries : List Entry} (f : Failure)
    (hentries : entries.all Entry.isProgress = true) : (job.fail entries f).output.stdout = [] := by
  have hreport : (f.report job.settings.verbose).filter Entry.isDump = [] := by
    unfold Failure.report
    split <;> rfl
  simp only [fail, Outcome.output, statusStream_of_stdout h]
  rw [shown_standardOutput, List.filter_append, filter_isDump_eq_nil hentries, hreport]
  rfl

theorem stdout_printed (h : job.stdout = true) {entries : List Entry} (tokens : List Token)
    (hentries : entries.all Entry.isProgress = true) :
    (job.printed entries tokens).output.stdout = DumpStream.block tokens := by
  simp only [printed, succeed, Outcome.output, statusStream_of_stdout h]
  rw [shown_standardOutput, List.filter_append, filter_isDump_eq_nil hentries]
  exact List.append_nil _

/-- What the last status line says, in which only the name of the target may lose something. -/
theorem text_done (count : Nat) (target : String) :
    (done count target).text = ("Done! " ++ count.repr ++ " lexemes written to ").toList ++
      (Text.stripSequences target.toList ++ ['\n']) := by
  have hplain : ("Done! " ++ count.repr ++ " lexemes written to ").toList.all isPlainAscii =
      true := by
    simp only [String.toList_append, List.all_append, all_isPlainAscii_repr]
    decide
  have hescape := not_mem_of_all_isPlainAscii hplain (c := Text.escapeChar) (by decide)
  have htext : (done count target).text =
      plainLine ("Done! " ++ count.repr ++ " lexemes written to " ++ target) := rfl
  rw [htext, plainLine, String.toList_append, Text.stripSequences_append hescape]
  exact List.append_assoc _ _ _

theorem text_done_standardOutput (count : Nat) : (done count "standard output").text =
    ("Done! " ++ count.repr ++ " lexemes written to standard output").toList ++ ['\n'] := by
  rw [text_done, Text.stripSequences_of_not_mem (by decide), ← List.append_assoc,
    ← String.toList_append, String.append_assoc]
  rfl

/-- The count of the tokens is the last thing that is said. -/
theorem done_suffix (status : Stream) (entries : List Entry) (count : Nat) (target : String) :
    (done count target).text <:+ shown status status (entries ++ [done count target]) := by
  rw [shown_append, shown_of_stream_eq (show (done count target).stream status = status from rfl)]
  exact List.suffix_append _ _

/-- Two jobs that only differ in where the dump goes end alike if the output file can be
opened: with the same dump, or with the same failure and nothing to show for it. -/
theorem Ends.agree {l : Location} (h : job.Ends tree outcome after) (hout : job.stdout = true)
    (h' : Job.Ends { job with stdout := false } tree outcome' after')
    (ho : tree.openForWriting job.settings.output = .ok l) :
    outcome'.exitCode = outcome.exitCode ∧
    ((∃ source tokens bytes, job.Scans tree source tokens ∧ outcome.exitCode = .success ∧
        Latin1.encode (dump tokens) = .ok bytes ∧
        after'.read job.settings.output = .ok bytes ∧
        outcome.output.stdout = DumpStream.block tokens ∧
        ("Done! " ++ tokens.length.repr ++ " lexemes written to standard output").toList ++
          ['\n'] <:+ outcome.output.stderr ∧
        ("Done! " ++ tokens.length.repr ++ " lexemes written to ").toList ++
          (Text.stripSequences job.settings.output.text.toList ++ ['\n']) <:+
            outcome'.output.stdout) ∨
      ((∃ e, job.available tree = .error e) ∨ ∃ source e, job.Rejects tree source e) ∧
        outcome.exitCode ≠ .success ∧ outcome.output.stdout = [] ∧ after' = tree) := by
  cases h with
  | unreadable ha =>
    obtain ⟨rfl, rfl⟩ := h'.unique (.unreadable ha)
    exact ⟨rfl, .inr ⟨.inl ⟨_, ha⟩, nofun, stdout_fail hout _ job.all_isProgress_opening, rfl⟩⟩
  | malformed hr =>
    obtain ⟨rfl, rfl⟩ := h'.unique (.malformed ⟨hr.available, hr.scan⟩)
    exact ⟨rfl, .inr ⟨.inr ⟨_, _, hr⟩, nofun,
      stdout_fail hout _ (job.all_isProgress_beforeScan _), rfl⟩⟩
  | @printed source tokens hs =>
    obtain ⟨rfl, rfl⟩ := h'.unique (.written ⟨hs.available, hs.scan⟩ rfl ho)
    refine ⟨rfl, .inl ⟨source, tokens, _, hs, rfl, encode_dump_of_scan hs.scan,
      Tree.read_set_of_openForWriting ho _,
      stdout_printed hout tokens (job.all_isProgress_afterScan source), ?_, ?_⟩⟩
    · simp only [Job.printed, succeed, Outcome.output, statusStream_of_stdout hout]
      rw [← text_done_standardOutput, List.append_cons]
      exact done_suffix _ _ _ _
    · rw [← text_done]
      exact done_suffix _ _ _ _
  | unopened _ hfile | written _ hfile =>
    rw [hout] at hfile
    cases hfile

end Job

/-- What a stream shows of a dump, in terms of the bytes that a file has of it. -/
theorem block_of_encode {tokens : List Token} {bytes : Bytes}
    (h : Latin1.encode (dump tokens) = .ok bytes) :
    DumpStream.block tokens = if bytes = [] then [] else Latin1.decode bytes ++ ['\n'] := by
  have hdump : dump tokens = Latin1.decode bytes := (Latin1.decode_of_encode_eq_ok h).symm
  have hnil : Latin1.decode bytes = [] ↔ bytes = [] := List.map_eq_nil_iff
  simp only [DumpStream.block, hdump, hnil]

/-- The banner stands in the opening of every job, behind the settings if they are shown. -/
theorem Job.banner_mem_opening (job : Job) :
    [.status "CENG Lexical Analyzer", .status "====================="] <:+: job.opening :=
  ⟨_, _, List.append_assoc _ _ _⟩

/-- Every job begins with its opening. -/
theorem Job.Ends.opening_prefix {job : Job} {tree after : Tree} {outcome : Outcome}
    (h : job.Ends tree outcome after) : job.opening <+: outcome.entries := by
  have hscan (source : Bytes) : job.opening <+: job.beforeScan source := List.prefix_append _ _
  have hdone (source : Bytes) : job.opening <+: job.afterScan source :=
    (hscan source).trans (List.prefix_append _ _)
  have hwrite (source : Bytes) : job.opening <+: job.beforeWrite source :=
    (hdone source).trans (List.prefix_append _ _)
  cases h with
  | unreadable => exact List.prefix_append _ _
  | malformed => exact (hscan _).trans (List.prefix_append _ _)
  | printed => exact (hdone _).trans (List.prefix_append _ _)
  | unopened => exact (hwrite _).trans (List.prefix_append _ _)
  | written =>
    exact (hwrite _).trans ((List.prefix_append _ _).trans (List.prefix_append _ _))

/-- A run that prints changes no file, and shows dumps on standard output and all else on
standard error, its banner included. If a run for the same job without that switch can open
its output file, it exits with the same code, and either the text that one prints is the
file that the other writes, with the payload of each string as it stands in the source, and
both end by saying how many tokens there are, or neither has anything to show. -/
theorem runOnTree_printed {line : Line} {tree kept : Tree} {arguments : List String}
    {items : List Item} {env : Environment} {job : Job} {printed : Output}
    (h : line.Accepted tree arguments) (hspells : Spells arguments items)
    (hjob : Job.ofItems items env = job) (hstdout : job.stdout = true)
    (hprint : runOnTree tree env arguments = (printed, kept)) :
    kept = tree ∧
    (∃ entries, (job.execute treeFiles tree).1.entries = entries ∧ job.opening <+: entries ∧
      [.status "CENG Lexical Analyzer", .status "====================="] <:+: entries ∧
      printed.stdout = (entries.filter Entry.isDump).flatMap Entry.text ∧
      printed.stderr = (entries.filter (!·.isDump)).flatMap Entry.text) ∧
    ∀ (line' : Line) arguments' items' env' l written after,
      line'.Accepted tree arguments' → Spells arguments' items' →
      Job.ofItems items' env' = { job with stdout := false } →
      tree.openForWriting job.settings.output = .ok l →
      runOnTree tree env' arguments' = (written, after) →
      written.exitCode = printed.exitCode ∧
      ((printed.exitCode = .success ∧ ∃ source tokens bytes, job.Scans tree source tokens ∧
          after.read job.settings.output = .ok bytes ∧
          printed.stdout = (if bytes = [] then [] else Latin1.decode bytes ++ ['\n']) ∧
          ("Done! " ++ tokens.length.repr ++ " lexemes written to standard output").toList ++
            ['\n'] <:+ printed.stderr ∧
          ("Done! " ++ tokens.length.repr ++ " lexemes written to ").toList ++
            (Text.stripSequences job.settings.output.text.toList ++ ['\n']) <:+ written.stdout ∧
          ∀ front text back, tokens = front ++ ⟨.stringConstant, text⟩ :: back →
            ∃ payload, Latin1.decode payload = text ∧ StringKept source bytes front payload back) ∨
        (printed.exitCode ≠ .success ∧
          ((∃ e, job.available tree = .error e) ∨ ∃ source e, job.Rejects tree source e) ∧
          printed.stdout = [] ∧ after = tree)) := by
  subst hjob
  obtain ⟨outcome, left, hends, heq⟩ := hspells.exists_ending h env
  obtain ⟨rfl, rfl⟩ := Prod.mk.inj (hprint.symm.trans heq)
  have hstatus : outcome.statusStream = .standardError :=
    hends.statusStream_eq.trans (Job.statusStream_of_stdout hstdout)
  refine ⟨hends.after_eq (.inr hstdout), ⟨outcome.entries, ?_, hends.opening_prefix,
    (Job.banner_mem_opening _).trans hends.opening_prefix.isInfix, ?_, ?_⟩, ?_⟩
  · rw [hends.execute_eq]
  · rw [← shown_standardOutput, Outcome.output, hstatus]
  · rw [← shown_standardError, Outcome.output, hstatus]
  · intro line' arguments' items' env' l written after h' hspells' hjob' ho hwrite
    obtain ⟨outcome', left', hends', heq'⟩ := hspells'.exists_ending h' env'
    rw [hjob'] at hends'
    obtain ⟨rfl, rfl⟩ := Prod.mk.inj (hwrite.symm.trans heq')
    obtain ⟨hcode, ⟨source, tokens, bytes, hs, hsuccess, hbytes, hfile, htext, hcount, hcount'⟩ |
      ⟨hfault, hfail, htext, hafter⟩⟩ := hends.agree hstdout hends' ho
    · refine ⟨hcode, .inl ⟨hsuccess, source, tokens, bytes, hs, hfile,
        htext.trans (block_of_encode hbytes), hcount, hcount', ?_⟩⟩
      rintro front text back rfl
      exact exists_stringKept hs.scan hbytes
    · exact ⟨hcode, .inr ⟨hfail, hfault, htext, hafter⟩⟩

/-- A string of an accent and a newline is printed and written with its two bytes, and counted
as one token. -/
theorem runOnTree_printed_accent :
    ∃ bytes before after,
      (runOnTree ⟨[(["p"], .file [34, 233, 10, 34])], []⟩ ⟨none, none, none⟩
        ["p", "-o", "p"]).2.read ⟨.current, ["p"]⟩ = .ok bytes ∧
      (runOnTree ⟨[(["p"], .file [34, 233, 10, 34])], []⟩ ⟨none, none, none⟩
        ["p", "--stdout", "-o", "p"]).1.stdout =
          (if bytes = [] then [] else Latin1.decode bytes ++ ['\n']) ∧
      "Done! 1 lexemes written to standard output\n".toList <:+
        (runOnTree ⟨[(["p"], .file [34, 233, 10, 34])], []⟩ ⟨none, none, none⟩
          ["p", "--stdout", "-o", "p"]).1.stderr ∧
      bytes = before ++ ([233, 10] ++ 125 :: after) := by
  have hpath : Path.ofText "p" = ⟨.current, ["p"]⟩ :=
    Path.ofText_of_not_mem (by decide) (by decide) (by decide)
  have hfile : Tree.isDirectory ⟨[(["p"], .file [34, 233, 10, 34])], []⟩ "p" = false := by
    rw [Tree.isDirectory, hpath]
    rfl
  have haccepted : Line.Accepted ⟨some "p", true, false, false, none, ["p"]⟩
      ⟨[(["p"], .file [34, 233, 10, 34])], []⟩ ["p", "--stdout", "-o", "p"] :=
    Line.accepted_iff.2 ⟨rfl, rfl, by simp [hfile], by simp [Line.source, hfile], rfl⟩
  have haccepted' : Line.Accepted ⟨some "p", false, false, false, none, ["p"]⟩
      ⟨[(["p"], .file [34, 233, 10, 34])], []⟩ ["p", "-o", "p"] :=
    haccepted.congr rfl rfl rfl rfl
  have hspells' : Spells ["p", "-o", "p"] [.file "p", .output "p"] :=
    .file rfl (.awaits .output_letter .done)
  have hspells : Spells ["p", "--stdout", "-o", "p"]
      [.file "p", .switch .stdout, .output "p"] :=
    .file rfl (.options (.switch rfl) (.awaits .output_letter .done))
  have hjob : Job.ofItems [.file "p", .switch .stdout, .output "p"] ⟨none, none, none⟩ =
      ⟨⟨⟨.current, ["p"]⟩, ⟨.current, ["p"]⟩, false⟩, false, true⟩ := by
    rw [← hpath]
    rfl
  have hjob' : Job.ofItems [.file "p", .output "p"] ⟨none, none, none⟩ =
      ⟨⟨⟨.current, ["p"]⟩, ⟨.current, ["p"]⟩, false⟩, false, false⟩ := by
    rw [← hpath]
    rfl
  have hquote : '"' ∉ ['é', '\n'] := by decide
  have hreads : Reads ['"', 'é', '\n', '"'] [.string ['é', '\n']] [] :=
    .piece hquote (Piece.endsBefore_nil _) rfl (.stop [])
  have hscan : scan (Latin1.decode [34, 233, 10, 34]) = .ok [⟨.stringConstant, ['é', '\n']⟩] :=
    hreads.scan_eq_ok
  obtain ⟨-, -, hwritten⟩ := runOnTree_printed haccepted hspells hjob rfl rfl
  obtain ⟨-, ⟨-, source, tokens, bytes, hs, hread, htext, hcount, -, hstrings⟩ |
    ⟨-, hfault, -, -⟩⟩ := hwritten _ _ _ _ ["p"] _ _ haccepted' hspells' hjob' rfl rfl
  · obtain rfl : [34, 233, 10, 34] = source := Except.ok.inj hs.available
    obtain rfl := Except.ok.inj (hscan.symm.trans hs.scan)
    obtain ⟨payload, hpayload, hkept⟩ := hstrings [] _ [] rfl
    obtain rfl : [233, 10] = payload := by
      rw [← Latin1.map_toUInt8_decode payload, hpayload]
      rfl
    obtain ⟨before, after, hbytes, -, -⟩ := hkept.file
    exact ⟨bytes, before, after, hread, htext, hcount, hbytes⟩
  · obtain ⟨e, he⟩ | ⟨source, e, he⟩ := hfault
    · cases he
    · obtain rfl : [34, 233, 10, 34] = source := Except.ok.inj he.available
      cases hscan.symm.trans he.scan

end Ceng.Command
