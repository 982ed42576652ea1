import Ceng.Command.Run
import Ceng.Proofs.Command.Report
import Ceng.Proofs.Files.DumpFile

/-!
# How a job ends

A job on a file tree ends in one of five ways. Each is decided by the source, the scan and
the output file, in this order, and each says what is reported and what is left of the tree.
What is proved about runs elsewhere is proved from the five endings, without opening the job.
-/
namespace Ceng.Command

/-- Status lines and log entries. -/
def Entry.isProgress : Entry → Bool
  | .status _ | .log _ => true
  | _ => false

/-! ## Jobs on a tree -/

namespace Job

/-- The bytes that a job scans, or why it has none. -/
def available (job : Job) (tree : Tree) : Except LoadError Bytes :=
  if job.demo then .ok demoSource else tree.load job.settings.source

/-- The job gets these bytes, and they scan to these tokens. -/
structure Scans (job : Job) (tree : Tree) (source : Bytes) (tokens : List Token) : Prop where
  available : job.available tree = .ok source
  scan : scan (Latin1.decode source) = .ok tokens

/-- The job gets these bytes, and scanning them stops with this error. -/
structure Rejects (job : Job) (tree : Tree) (source : Bytes) (e : LexicalError) : Prop where
  available : job.available tree = .ok source
  scan : scan (Latin1.decode source) = .error e

/-- What has been said when the source is about to be scanned. -/
def beforeScan (job : Job) (source : Bytes) : List Entry := job.opening ++ job.loaded source

/-- What has been said when the scan has succeeded. -/
def afterScan (job : Job) (source : Bytes) : List Entry :=
  job.beforeScan source ++ job.scanned (Run.ofSource (Latin1.decode source))

/-- What has been said when the output file is about to be opened. -/
def beforeWrite (job : Job) (source : Bytes) : List Entry :=
  job.afterScan source ++ [.status "Writing lexemes to file..."]

/-! Before it ends, a job only says how far it is. -/

theorem all_isProgress_log (job : Job) (text : String) :
    (job.log text).all Entry.isProgress = true := by
  unfold log
  split <;> rfl

theorem all_isProgress_opening (job : Job) : job.opening.all Entry.isProgress = true := by
  rw [opening, List.all_append, all_isProgress_log]
  rfl

theorem all_isProgress_beforeScan (job : Job) (source : Bytes) :
    (job.beforeScan source).all Entry.isProgress = true := by
  rw [beforeScan, List.all_append, all_isProgress_opening, loaded, List.all_append]
  cases job.demo
  · rw [if_neg Bool.false_ne_true, all_isProgress_log]
    rfl
  · rfl

theorem all_isProgress_afterScan (job : Job) (source : Bytes) :
    (job.afterScan source).all Entry.isProgress = true := by
  rw [afterScan, List.all_append, all_isProgress_beforeScan, scanned, all_isProgress_log]
  rfl

theorem all_isProgress_beforeWrite (job : Job) (source : Bytes) :
    (job.beforeWrite source).all Entry.isProgress = true := by
  rw [beforeWrite, List.all_append, all_isProgress_afterScan]
  rfl

/-- The five ways in which a job ends, each with its outcome and the tree that is left. -/
inductive Ends (job : Job) (tree : Tree) : Outcome → Tree → Prop
  | unreadable {e : LoadError} : job.available tree = .error e →
      Ends job tree (job.fail job.opening (.unreadable e)) tree
  | malformed {source : Bytes} {e : LexicalError} : job.Rejects tree source e →
      Ends job tree (job.fail (job.beforeScan source) (.malformed e.diagnostic)) tree
  | printed {source : Bytes} {tokens : List Token} : job.Scans tree source tokens →
      job.stdout = true → Ends job tree (job.printed (job.afterScan source) tokens) tree
  | unopened {source : Bytes} {tokens : List Token} {cause : FileError.Cause} :
      job.Scans tree source tokens → job.stdout = false →
      tree.openForWriting job.settings.output = .error cause →
      Ends job tree (job.fail (job.beforeWrite source)
        (.ofWriteError (.cannotOpen ⟨cause, job.settings.output⟩))) tree
  | written {source : Bytes} {tokens : List Token} {l : Location} :
      job.Scans tree source tokens → job.stdout = false →
      tree.openForWriting job.settings.output = .ok l →
      Ends job tree (job.written (job.beforeWrite source) (.ok tokens.length))
        (tree.set l (.file ((dump tokens).map Char.toUInt8)))

variable {job : Job} {tree : Tree}

theorem fetch_treeFiles (job : Job) (tree : Tree) :
    job.fetch treeFiles tree = (job.available tree, tree) := by
  unfold fetch available
  by_cases h : job.demo = true
  · rw [if_pos h, if_pos h]; rfl
  · rw [if_neg h, if_neg h]; rfl

theorem deliver_treeFiles (job : Job) (entries : List Entry) (tokens : List Token) (tree : Tree) :
    job.deliver treeFiles entries tokens tree =
      if job.stdout then (job.printed entries tokens, tree)
      else (job.written (entries ++ [.status "Writing lexemes to file..."])
        (tree.writeDump job.settings.output tokens).1,
        (tree.writeDump job.settings.output tokens).2) := by
  unfold deliver
  by_cases h : job.stdout = true
  · rw [if_pos h, if_pos h]; rfl
  · rw [if_neg h, if_neg h]; rfl

/-- The source, the scan and the delivery follow each other. -/
theorem execute_treeFiles (job : Job) (tree : Tree) :
    job.execute treeFiles tree =
      match job.available tree with
      | .error e => (job.fail job.opening (.unreadable e), tree)
      | .ok source =>
        match scan (Latin1.decode source) with
        | .error e => (job.fail (job.beforeScan source) (.malformed e.diagnostic), tree)
        | .ok tokens => job.deliver treeFiles (job.afterScan source) tokens tree := by
  unfold execute
  simp only [bind, StateT.bind, fetch_treeFiles]
  cases job.available tree with
  | error e => rfl
  | ok source =>
    unfold scan
    dsimp only
    cases (Run.ofSource (Latin1.decode source)).result with
    | error e => rfl
    | ok tokens => rfl

theorem execute_of_scans {source : Bytes} {tokens : List Token}
    (h : job.Scans tree source tokens) :
    job.execute treeFiles tree = job.deliver treeFiles (job.afterScan source) tokens tree := by
  rw [execute_treeFiles, h.available]
  dsimp only
  rw [h.scan]

variable {outcome : Outcome} {after : Tree}

theorem Ends.execute_eq (h : job.Ends tree outcome after) :
    job.execute treeFiles tree = (outcome, after) := by
  cases h with
  | unreadable ha => rw [execute_treeFiles, ha]
  | malformed hr =>
    rw [execute_treeFiles, hr.available]
    dsimp only
    rw [hr.scan]
  | printed hs hout => rw [execute_of_scans hs, deliver_treeFiles, if_pos hout]
  | unopened hs hout ho =>
    rw [execute_of_scans hs, deliver_treeFiles, if_neg (ne_true_of_eq_false hout),
      Tree.writeDump_of_error ho]
    rfl
  | written hs hout ho =>
    rw [execute_of_scans hs, deliver_treeFiles, if_neg (ne_true_of_eq_false hout),
      Tree.writeDump_of_scan ho hs.scan]
    rfl

theorem Ends.statusStream_eq (h : job.Ends tree outcome after) :
    outcome.statusStream = job.statusStream := by
  cases h <;> rfl

theorem exists_ends (job : Job) (tree : Tree) : ∃ outcome after, job.Ends tree outcome after := by
  cases ha : job.available tree with
  | error e => exact ⟨_, _, .unreadable ha⟩
  | ok source =>
    cases hs : scan (Latin1.decode source) with
    | error e => exact ⟨_, _, .malformed ⟨ha, hs⟩⟩
    | ok tokens =>
      cases hout : job.stdout with
      | true => exact ⟨_, _, .printed ⟨ha, hs⟩ hout⟩
      | false =>
        cases ho : tree.openForWriting job.settings.output with
        | error cause => exact ⟨_, _, .unopened ⟨ha, hs⟩ hout ho⟩
        | ok l => exact ⟨_, _, .written ⟨ha, hs⟩ hout ho⟩

end Job

/-! ## Runs of the command -/

/-- The arguments are read as this line, which asks for a run and not for the version or the
help, and nothing in it is found wrong. -/
structure Line.Accepted (line : Line) (tree : Tree) (arguments : List String) : Prop where
  read : Line.ofArguments arguments = .ok line
  request : line.request = none
  checked : (line.check treeFiles tree).1 = none

theorem Line.checkFile_treeFiles (parameter : Parameter) (value : Option String) (tree : Tree) :
    checkFile treeFiles parameter value tree =
      ((value.filter tree.isDirectory).map (.directory parameter), tree) := by
  cases value with
  | none => rfl
  | some text =>
    simp only [checkFile, treeFiles, bind, StateT.bind, Option.filter]
    cases tree.isDirectory text <;> rfl

/-- The complaint about a line on a tree. To look for it changes nothing. -/
theorem Line.check_treeFiles (line : Line) (tree : Tree) :
    line.check treeFiles tree =
      ((line.output.filter tree.isDirectory).map (.directory .output) <|>
        (line.source.filter tree.isDirectory).map (.directory .source) <|>
        (if line.arguments.tail = [] then none else some (.extraArguments line.arguments.tail)),
        tree) := by
  unfold check
  simp only [bind, StateT.bind, checkFile_treeFiles]
  cases line.output.filter tree.isDirectory with
  | some text => rfl
  | none =>
    simp only [Option.map_none, StateT.bind, checkFile_treeFiles]
    cases line.source.filter tree.isDirectory with
    | some text => rfl
    | none => cases line.arguments.tail <;> rfl

/-- A line that can be read is accepted if it makes no request, and names no directory for a
file and no second source. -/
theorem Line.accepted_iff {line : Line} {tree : Tree} {arguments : List String} :
    line.Accepted tree arguments ↔
      Line.ofArguments arguments = .ok line ∧ line.request = none ∧
        (∀ value ∈ line.output, tree.isDirectory value = false) ∧
        (∀ value ∈ line.source, tree.isDirectory value = false) ∧ line.arguments.tail = [] := by
  have hfilter (o : Option String) :
      o.filter tree.isDirectory = none ↔ ∀ value ∈ o, tree.isDirectory value = false := by
    cases o <;> simp [Option.filter]
  have hchecked : (line.check treeFiles tree).1 = none ↔
      line.output.filter tree.isDirectory = none ∧ line.source.filter tree.isDirectory = none ∧
        line.arguments.tail = [] := by
    rw [Line.check_treeFiles]
    cases line.output.filter tree.isDirectory <;> cases line.source.filter tree.isDirectory <;>
      simp
  rw [← hfilter, ← hfilter, ← hchecked]
  exact ⟨fun h => ⟨h.read, h.request, h.checked⟩, fun h => ⟨h.1, h.2.1, h.2.2⟩⟩

/-- The switches of a line have no part in whether it is accepted. -/
theorem Line.Accepted.congr {line line' : Line} {tree : Tree} {arguments arguments' : List String}
    (h : line.Accepted tree arguments) (hread : Line.ofArguments arguments' = .ok line')
    (hrequest : line'.request = line.request) (houtput : line'.output = line.output)
    (harguments : line'.arguments = line.arguments) : line'.Accepted tree arguments' := by
  obtain ⟨-, hnone, hfiles⟩ := Line.accepted_iff.1 h
  rw [Line.source] at hfiles
  rw [Line.accepted_iff, Line.source, hrequest, houtput, harguments]
  exact ⟨hread, hnone, hfiles⟩

theorem Line.Accepted.runOnTree_eq {line : Line} {tree : Tree} {arguments : List String}
    (h : line.Accepted tree arguments) (env : Environment) :
    runOnTree tree env arguments =
      (((line.job env).execute treeFiles tree).1.output,
        ((line.job env).execute treeFiles tree).2) := by
  have hcheck : line.check treeFiles tree = (none, tree) :=
    Prod.ext h.checked (by rw [line.check_treeFiles])
  unfold runOnTree run
  rw [h.read]
  dsimp only
  rw [h.request]
  dsimp only
  simp only [bind, StateT.bind, hcheck]
  rfl

/-- An accepted line is run to one of the five endings of its job. -/
theorem Line.Accepted.exists_ending {line : Line} {tree : Tree} {arguments : List String}
    (h : line.Accepted tree arguments) (env : Environment) :
    ∃ outcome after, (line.job env).Ends tree outcome after ∧
      runOnTree tree env arguments = (outcome.output, after) := by
  obtain ⟨outcome, after, he⟩ := (line.job env).exists_ends tree
  exact ⟨outcome, after, he, by rw [h.runOnTree_eq env, he.execute_eq]⟩

end Ceng.Command
