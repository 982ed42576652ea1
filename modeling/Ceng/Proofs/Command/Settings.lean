import Ceng.Proofs.Command.Item
import Ceng.Proofs.Command.Outcome
import Ceng.Proofs.Files.Path

/-!
# Settings that take effect

A run knows its arguments and its environment only by the job they make, and a quiet run
uses of its job only what it has a use for: the demo program needs no source, and a dump
that is printed needs no output file. In a log all settings are shown.
-/
namespace Ceng

/-! ## Trees of one shape -/

/-- The node without what it holds. -/
def Node.shape : Node → Node
  | .directory => .directory
  | .file _ => .file []

/-- The trees differ at most in what their files hold. -/
structure Tree.SameShape (t t' : Tree) : Prop where
  current : t'.current = t.current
  node : ∀ l, (t'.node? l).map Node.shape = (t.node? l).map Node.shape

namespace Tree.SameShape

variable {t t' : Tree} (h : t.SameShape t')

include h

theorem directory_iff (l : Location) :
    t'.node? l = some .directory ↔ t.node? l = some .directory := by
  have hshape (node : Option Node) :
      node = some .directory ↔ node.map Node.shape = some .directory := by
    rcases node with _ | _ | _ <;> simp [Node.shape]
  rw [hshape, h.node l, ← hshape]

theorem enter_eq (l : Location) (name : String) : t'.enter l name = t.enter l name := by
  have hnode := h.node l
  unfold Tree.enter
  rcases h1 : t.node? l with _ | _ | _ <;> rcases h2 : t'.node? l with _ | _ | _ <;>
    simp_all [Node.shape]

theorem locate_eq (p : Path) : t'.locate p = t.locate p := by
  have horigin : t'.origin p.start = t.origin p.start := by
    unfold Tree.origin
    rw [h.current]
  have henter : t'.enter = t.enter := funext fun l => funext fun name => h.enter_eq l name
  rw [Tree.locate, horigin, henter, Tree.locate]

/-- Which file is opened for writing has nothing to do with what files hold. -/
theorem openForWriting_eq (p : Path) : t'.openForWriting p = t.openForWriting p := by
  unfold Tree.openForWriting
  rw [h.locate_eq p]
  cases t.locate p with
  | error cause => rfl
  | ok l => simp only [h.directory_iff l]

end Tree.SameShape

namespace Command

/-! ## What quiet jobs use -/

namespace Job

/-- Quiet jobs that agree on all settings that they have a use for. -/
structure Agree (job job' : Job) : Prop where
  quiet : job.settings.verbose = false
  quiet' : job'.settings.verbose = false
  demo : job'.demo = job.demo
  stdout : job'.stdout = job.stdout
  source : job.demo = false → job'.settings.source = job.settings.source
  output : job.stdout = false → job'.settings.output = job.settings.output

theorem log_of_quiet {job : Job} (h : job.settings.verbose = false) (text : String) :
    job.log text = [] := by
  rw [log, h]
  rfl

theorem available_of_demo {job : Job} (h : job.demo = true) (tree : Tree) :
    job.available tree = .ok demoSource := if_pos h

theorem available_of_not_demo {job : Job} (h : job.demo = false) (tree : Tree) :
    job.available tree = tree.load job.settings.source := if_neg (ne_true_of_eq_false h)

namespace Agree

variable {job job' : Job} (h : job.Agree job')

include h

theorem opening_eq : job'.opening = job.opening := by
  rw [opening, opening, log_of_quiet h.quiet, log_of_quiet h.quiet', h.demo]
  cases hdemo : job.demo with
  | true => rfl
  | false => rw [h.source hdemo]

theorem beforeScan_eq (source : Bytes) : job'.beforeScan source = job.beforeScan source := by
  rw [beforeScan, beforeScan, h.opening_eq, loaded, loaded, log_of_quiet h.quiet,
    log_of_quiet h.quiet', h.demo]

theorem afterScan_eq (source : Bytes) : job'.afterScan source = job.afterScan source := by
  rw [afterScan, afterScan, h.beforeScan_eq, scanned, scanned, log_of_quiet h.quiet,
    log_of_quiet h.quiet']

theorem beforeWrite_eq (source : Bytes) : job'.beforeWrite source = job.beforeWrite source := by
  rw [beforeWrite, beforeWrite, h.afterScan_eq]

theorem statusStream_eq : job'.statusStream = job.statusStream := by
  rw [statusStream, statusStream, h.stdout]

theorem fail_eq (entries : List Entry) (f : Failure) :
    job'.fail entries f = job.fail entries f := by
  rw [fail, fail, h.statusStream_eq, h.quiet, h.quiet']

theorem succeed_eq (entries : List Entry) : job'.succeed entries = job.succeed entries := by
  rw [succeed, succeed, h.statusStream_eq]

theorem written_eq (hout : job.stdout = false) (entries : List Entry) (count : Nat) :
    job'.written entries (.ok count) = job.written entries (.ok count) := by
  rw [written, written, h.succeed_eq, wrote, wrote, log_of_quiet h.quiet,
    log_of_quiet h.quiet', h.output hout]

/-- Such jobs end in the same way where they get the same source and open the same file. -/
theorem ends {tree tree' after : Tree} {outcome : Outcome}
    (hends : job.Ends tree outcome after) (hsource : job'.available tree' = job.available tree)
    (hopen : tree'.openForWriting job.settings.output = tree.openForWriting job.settings.output) :
    ∃ after', job'.Ends tree' outcome after' ∧ (tree' = tree → after' = after) := by
  cases hends with
  | unreadable ha =>
    rw [← h.opening_eq, ← h.fail_eq]
    exact ⟨_, .unreadable (hsource.trans ha), id⟩
  | malformed hr =>
    rw [← h.beforeScan_eq, ← h.fail_eq]
    exact ⟨_, .malformed ⟨hsource.trans hr.available, hr.scan⟩, id⟩
  | printed hs hout =>
    rw [Job.printed, ← h.afterScan_eq, ← h.succeed_eq]
    exact ⟨_, .printed ⟨hsource.trans hs.available, hs.scan⟩ (h.stdout.trans hout), id⟩
  | @unopened source tokens cause hs hout ho =>
    have ho' : tree'.openForWriting job'.settings.output = .error cause := by
      rw [h.output hout, hopen, ho]
    rw [← h.beforeWrite_eq, ← h.fail_eq, ← h.output hout]
    exact ⟨_, .unopened ⟨hsource.trans hs.available, hs.scan⟩ (h.stdout.trans hout) ho', id⟩
  | @written source tokens l hs hout ho =>
    have ho' : tree'.openForWriting job'.settings.output = .ok l := by
      rw [h.output hout, hopen, ho]
    rw [← h.beforeWrite_eq, ← h.written_eq hout]
    refine ⟨_, .written ⟨hsource.trans hs.available, hs.scan⟩ (h.stdout.trans hout) ho', ?_⟩
    rintro rfl
    rfl

theorem available_eq (tree : Tree) : job'.available tree = job.available tree := by
  cases hdemo : job.demo with
  | true => rw [available_of_demo hdemo, available_of_demo (h.demo.trans hdemo)]
  | false =>
    rw [available_of_not_demo hdemo, available_of_not_demo (h.demo.trans hdemo), h.source hdemo]

end Agree

/-- The demo program is well formed. -/
theorem exists_scan_demoSource : ∃ tokens, scan (Latin1.decode demoSource) = .ok tokens := by
  have hok : (scan (Latin1.decode demoSource)).isOk = true := by decide +kernel
  cases hs : scan (Latin1.decode demoSource) with
  | error e =>
    rw [hs] at hok
    cases hok
  | ok tokens => exact ⟨tokens, rfl⟩

theorem exists_scans_of_demo {job : Job} (h : job.demo = true) (tree : Tree) :
    ∃ source tokens, job.Scans tree source tokens := by
  obtain ⟨tokens, hscan⟩ := exists_scan_demoSource
  exact ⟨demoSource, tokens, available_of_demo h tree, hscan⟩

namespace Ends

variable {job : Job} {tree after : Tree} {outcome : Outcome} (h : job.Ends tree outcome after)

include h

/-- No source is needed for the demo program. -/
theorem success_iff_of_demo (hdemo : job.demo = true) : outcome.exitCode = .success ↔
    job.stdout = true ∨ ∃ l, tree.openForWriting job.settings.output = .ok l := by
  rw [h.success_iff]
  constructor
  · rintro ⟨_, _, _, hto⟩
    exact hto
  · intro hto
    obtain ⟨source, tokens, hscans⟩ := exists_scans_of_demo hdemo tree
    exact ⟨source, tokens, hscans, hto⟩

/-- No output file is needed for a dump that is printed. -/
theorem success_iff_of_stdout (hout : job.stdout = true) : outcome.exitCode = .success ↔
    job.demo = true ∨ ∃ source tokens, tree.load job.settings.source = .ok source ∧
      scan (Latin1.decode source) = .ok tokens := by
  rw [h.success_iff]
  cases hdemo : job.demo with
  | true =>
    obtain ⟨source, tokens, hscans⟩ := exists_scans_of_demo hdemo tree
    exact ⟨fun _ => .inl rfl, fun _ => ⟨source, tokens, hscans, .inl hout⟩⟩
  | false =>
    have hload := available_of_not_demo hdemo tree
    constructor
    · rintro ⟨source, tokens, hscans, -⟩
      exact .inr ⟨source, tokens, hload.symm.trans hscans.available, hscans.scan⟩
    · rintro (hother | ⟨source, tokens, hsource, hscan⟩)
      · cases hother
      · exact ⟨source, tokens, ⟨hload.trans hsource, hscan⟩, .inl hout⟩

end Ends
end Job

/-- Two runs that ask for the same job do the same. Two quiet runs do the same if their jobs
agree on what they use, so a run that prints does not depend on its output file, and what a
run of the demo program shows does not depend on its source, nor on what any file holds. A
file which is not used cannot make a run fail. -/
theorem runOnTree_effective {tree tree' : Tree} {line line' : Line}
    {arguments arguments' : List String} {items items' : List Item} {env env' : Environment}
    {job job' : Job} (h : line.Accepted tree arguments) (h' : line'.Accepted tree' arguments')
    (hs : Spells arguments items) (hs' : Spells arguments' items')
    (hjob : Job.ofItems items env = job) (hjob' : Job.ofItems items' env' = job') :
    (job' = job → tree' = tree → runOnTree tree' env' arguments' = runOnTree tree env arguments) ∧
    (job.Agree job' → tree' = tree →
      runOnTree tree' env' arguments' = runOnTree tree env arguments) ∧
    (job.Agree job' → job.demo = true → tree.SameShape tree' →
      (runOnTree tree' env' arguments').1 = (runOnTree tree env arguments).1) ∧
    (job.demo = true → ((runOnTree tree env arguments).1.exitCode = .success ↔
      job.stdout = true ∨ ∃ l, tree.openForWriting job.settings.output = .ok l)) ∧
    (job.stdout = true → ((runOnTree tree env arguments).1.exitCode = .success ↔
      job.demo = true ∨ ∃ source tokens, tree.load job.settings.source = .ok source ∧
        scan (Latin1.decode source) = .ok tokens)) := by
  subst hjob hjob'
  obtain ⟨outcome, after, hends, hrun⟩ := hs.exists_ending h env
  obtain ⟨outcome', after', hends', hrun'⟩ := hs'.exists_ending h' env'
  rw [hrun, hrun']
  refine ⟨fun hjob htree => ?_, fun hagree htree => ?_, fun hagree hdemo hshape => ?_,
    hends.success_iff_of_demo, hends.success_iff_of_stdout⟩
  · subst htree
    rw [hjob] at hends'
    obtain ⟨rfl, rfl⟩ := hends'.unique hends
    rfl
  · subst htree
    obtain ⟨left, hleft, hafter⟩ := hagree.ends hends (hagree.available_eq _) rfl
    obtain ⟨rfl, rfl⟩ := hends'.unique hleft
    rw [hafter rfl]
  · -- Both have the demo program, and the output file can be opened in both trees or in neither.
    have hsource : (Job.ofItems items' env').available tree' =
        (Job.ofItems items env).available tree := by
      rw [hagree.available_eq, Job.available_of_demo hdemo, Job.available_of_demo hdemo]
    obtain ⟨left, hleft, -⟩ := hagree.ends hends hsource (hshape.openForWriting_eq _)
    rw [(hends'.unique hleft).1]

/-- Two ways to name the same files come to the same run. The demo program can be printed where
there are no files at all, whatever files the environment names. -/
theorem runOnTree_effective_spellings :
    runOnTree ⟨[(["p"], .file [59])], []⟩ ⟨some "p", some "q", none⟩ ["--output=p"] =
      runOnTree ⟨[(["p"], .file [59])], []⟩ ⟨none, none, some ""⟩ ["-o", "q", "-op", "p"] ∧
    runOnTree ⟨[], []⟩ ⟨none, some "p", none⟩ ["--demo", "--stdout"] =
      runOnTree ⟨[], []⟩ ⟨some "p", none, none⟩ ["--demo", "--stdout"] ∧
    (runOnTree ⟨[], []⟩ ⟨some "p", none, none⟩ ["--demo", "--stdout"]).1.exitCode = .success := by
  have hfile : Tree.isDirectory ⟨[(["p"], .file [59])], []⟩ "p" = false := by
    rw [Tree.isDirectory, Path.ofText_of_not_mem (by decide) (by decide) (by decide)]
    rfl
  have haccepted : Line.Accepted ⟨some "p", false, false, false, none, ["p"]⟩
      ⟨[(["p"], .file [59])], []⟩ ["-o", "q", "-op", "p"] :=
    Line.accepted_iff.2 ⟨rfl, rfl, by simp [hfile], by simp [Line.source, hfile], rfl⟩
  have haccepted' : Line.Accepted ⟨some "p", false, false, false, none, []⟩
      ⟨[(["p"], .file [59])], []⟩ ["--output=p"] :=
    Line.accepted_iff.2 ⟨rfl, rfl, by simp [hfile], by simp [Line.source], rfl⟩
  have hdemo : Line.Accepted ⟨none, true, true, false, none, []⟩ ⟨[], []⟩
      ["--demo", "--stdout"] := ⟨rfl, rfl, rfl⟩
  have hjoined : Options "-op".toList [.output "p"] false :=
    .letters (List.cons_ne_nil _ _) (.output (List.cons_ne_nil _ _))
  have hspells : Spells ["-o", "q", "-op", "p"] [.output "q", .output "p", .file "p"] :=
    .awaits .output_letter (.options hjoined (.file rfl .done))
  have hlong : Options "--output=p".toList [.output "p"] false := .output "p"
  have hspells' : Spells ["--output=p"] [.output "p"] := .options hlong .done
  have hdemoSpells : Spells ["--demo", "--stdout"] [.switch .demo, .switch .stdout] :=
    .options (.switch rfl) (.options (.switch rfl) .done)
  obtain ⟨hsame, -⟩ := runOnTree_effective haccepted haccepted' hspells hspells' rfl rfl
  obtain ⟨-, hunused, -, hsuccess, -⟩ := @runOnTree_effective _ _ _ _ _ _ _ _ ⟨some "p", none, none⟩
    ⟨none, some "p", none⟩ _ _ hdemo hdemo hdemoSpells hdemoSpells rfl rfl
  refine ⟨hsame rfl rfl, hunused ⟨rfl, rfl, rfl, rfl, ?_, ?_⟩ rfl, (hsuccess rfl).2 (.inl rfl)⟩
  · exact fun h => absurd h (by decide)
  · exact fun h => absurd h (by decide)

end Command
end Ceng
