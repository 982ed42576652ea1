import Ceng.Proofs.Scan.Appending
import Ceng.Proofs.Scan.Gaps
import Ceng.Scanner

/-!
# The line counter

The counter of a run is the physical line plus the number of line comments read
so far. Every piece moves it by its own newlines, apart from a line comment, which
holds none and counts one. A literal that is never closed is reported at the line
on which the source ends, and any other fault at the line of its lexeme.
-/
namespace Ceng

def Piece.isLineComment : Piece → Bool
  | .lineComment _ => true
  | _ => false

/-- How many line comments the run has read. -/
def Run.lineComments (run : Run) : Nat := run.steps.countP (·.piece.isLineComment)

/-- The line on which the character at a position stands. Lines count from one. -/
def physicalLine (source : List Char) (pos : Nat) : Nat := 1 + (source.take pos).count '\n'

theorem physicalLine_append (text rest : List Char) :
    physicalLine (text ++ rest) text.length = 1 + text.count '\n' := by
  rw [physicalLine, List.take_left]

/-! ## Pieces -/

/-- A piece moves the counter by its newlines, and a line comment by one more. -/
theorem Piece.WellFormed.lines_eq {p : Piece} (h : p.WellFormed) :
    p.lines = p.text.count '\n' + if p.isLineComment then 1 else 0 := by
  cases p with
  | word text =>
    have hz := count_newline_eq_zero h.2.1 (by decide)
    simp [Piece.lines, Piece.text, Piece.isLineComment, hz]
  | number negative digits =>
    have hz := count_newline_eq_zero h.2.1 (by decide)
    cases negative <;> simp [Piece.lines, Piece.text, Piece.isLineComment, hz]
  | operator op => cases op <;> decide
  | bracket b => cases b <;> decide
  | statementEnd => decide
  | string body => simp [Piece.lines, Piece.text, Piece.isLineComment]
  | blockComment body => simp [Piece.lines, Piece.text, Piece.isLineComment]
  | lineComment body =>
    have hz : body.count '\n' = 0 := List.count_eq_zero.2 h
    simp [Piece.lines, Piece.text, Piece.isLineComment, hz]
  | newline => decide
  | skipped c =>
    have hc : c ≠ '\n' := by
      rintro rfl
      have hskip : isSkippable '\n' = true := h
      exact absurd hskip (by decide)
    simp [Piece.lines, Piece.text, Piece.isLineComment, hc]

theorem linesOf_eq {pieces : List Piece} (h : ∀ p ∈ pieces, p.WellFormed) :
    linesOf pieces = (textOf pieces).count '\n' + pieces.countP Piece.isLineComment := by
  induction pieces with
  | nil => rfl
  | cons p pieces ih =>
    have hp := (h p (by simp)).lines_eq
    have hrest := ih fun q hq => h q (List.mem_cons_of_mem p hq)
    rw [linesOf_cons, textOf_cons, List.count_append, List.countP_cons, hp, hrest]
    omega

/-! ## Steps -/

theorem countP_stepsFrom (pos line : Nat) (pieces : List Piece) :
    (stepsFrom pos line pieces).countP (·.piece.isLineComment) =
      pieces.countP Piece.isLineComment := by
  have h := List.countP_map (p := Piece.isLineComment) (f := Step.piece)
    (l := stepsFrom pos line pieces)
  rw [map_piece_stepsFrom] at h
  exact h.symm

/-- The steps up to one of them read the pieces up to its piece, and it leaves the
cursor and the counter after them. -/
theorem stepsFrom_eq_append {pos line : Nat} {pieces : List Piece} {before after : List Step}
    {step : Step} (h : stepsFrom pos line pieces = before ++ step :: after) :
    ∃ front back, pieces = front ++ back ∧ before ++ [step] = stepsFrom pos line front ∧
      step.pos + step.piece.length = pos + (textOf front).length ∧
      step.line = line + linesOf front := by
  have hpieces := congrArg (List.map Step.piece) h
  rw [map_piece_stepsFrom, List.map_append, List.map_cons] at hpieces
  rw [hpieces, stepsFrom_append, stepsFrom] at h
  have hlength : (stepsFrom pos line (before.map Step.piece)).length = before.length := by
    rw [← List.length_map Step.piece, map_piece_stepsFrom, List.length_map]
  obtain ⟨hbefore, hstep⟩ := List.append_inj h hlength
  obtain ⟨hstep, _⟩ := List.cons.inj hstep
  refine ⟨before.map Step.piece ++ [step.piece], after.map Step.piece, ?_, ?_, ?_, ?_⟩
  · rw [hpieces, List.append_assoc, List.singleton_append]
  · rw [stepsFrom_append, hbefore, stepsFrom, hstep, stepsFrom]
  · rw [← hstep, textOf_append, List.length_append]
    simp [Piece.length, Nat.add_assoc]
  · rw [← hstep, linesOf_append]
    simp [Nat.add_assoc]

namespace Reading

variable {source rest : List Char} {pieces : List Piece} {stop : Option Fault}

theorem lineComments_eq (h : Reading source pieces rest stop) :
    (Run.ofSource source).lineComments = pieces.countP Piece.isLineComment := by
  rw [h.ofSource_eq, Run.lineComments, countP_stepsFrom]

theorem physicalLine_pos (h : Reading source pieces rest stop) :
    physicalLine source (Run.ofSource source).pos = 1 + (textOf pieces).count '\n' := by
  rw [← physicalLine_append (textOf pieces) rest, ← h.reads.source_eq, h.ofSource_eq]

/-- The counter is at the line of the cursor, plus the line comments, plus what a
fault has counted of the rest. -/
theorem line_eq (h : Reading source pieces rest stop) :
    (Run.ofSource source).line =
      physicalLine source (Run.ofSource source).pos + (Run.ofSource source).lineComments +
        stopLines stop rest := by
  rw [h.physicalLine_pos, h.lineComments_eq, h.ofSource_eq]
  change 1 + linesOf pieces + stopLines stop rest = _
  rw [linesOf_eq h.reads.wellFormed, ← Nat.add_assoc 1]

/-- What is left after the cursor leads from its line to the last one. -/
theorem physicalLine_pos_add_count (h : Reading source pieces rest stop) :
    physicalLine source (Run.ofSource source).pos + rest.count '\n' = 1 + source.count '\n' := by
  have hcount : source.count '\n' = (textOf pieces).count '\n' + rest.count '\n' := by
    rw [← List.count_append, ← h.reads.source_eq]
  rw [h.physicalLine_pos, hcount, Nat.add_assoc]

/-- A step leaves the counter at the line of the new cursor, plus the line comments
among the steps up to it. -/
theorem step_line_eq (h : Reading source pieces rest stop) {before after : List Step} {step : Step}
    (hstep : (Run.ofSource source).steps = before ++ step :: after) :
    step.line = physicalLine source (step.pos + step.piece.length) +
      (before ++ [step]).countP (·.piece.isLineComment) := by
  rw [h.ofSource_eq] at hstep
  obtain ⟨front, back, hpieces, hbefore, hpos, hline⟩ := stepsFrom_eq_append hstep
  have hwf : ∀ p ∈ front, p.WellFormed := fun p hp =>
    h.reads.wellFormed p (by rw [hpieces]; exact List.mem_append_left back hp)
  have hsource : source = textOf front ++ (textOf back ++ rest) := by
    rw [← List.append_assoc, ← textOf_append, ← hpieces, ← h.reads.source_eq]
  have hphysical := physicalLine_append (textOf front) (textOf back ++ rest)
  rw [← hsource] at hphysical
  rw [hbefore, countP_stepsFrom, hline, hpos, Nat.zero_add, hphysical, linesOf_eq hwf,
    Nat.add_assoc]

end Reading

/-! ## Whole sources -/

theorem line_of_scan_eq_ok {source : List Char} {tokens : List Token}
    (h : scan source = .ok tokens) :
    (Run.ofSource source).line = 1 + source.count '\n' + (Run.ofSource source).lineComments := by
  obtain ⟨pieces, hr, _⟩ := reads_of_scan_eq_ok h
  have hrun : Reading source pieces [] none := ⟨hr, rfl⟩
  have hend := hrun.physicalLine_pos_add_count
  rw [List.count_nil, Nat.add_zero] at hend
  rw [hrun.line_eq, hend, stopLines, Nat.add_zero]

theorem line_of_scan_eq_error {source : List Char} {e : LexicalError}
    (h : scan source = .error e) :
    (Run.ofSource source).line = e.line ∧
      (e.fault.IsExcess → e.line = physicalLine source (Run.ofSource source).pos +
        (Run.ofSource source).lineComments) ∧
      (e.fault = .openString ∨ e.fault = .openComment →
        e.line = 1 + source.count '\n' + (Run.ofSource source).lineComments) := by
  obtain ⟨pieces, rest, hr, hm, hline⟩ := reads_of_scan_eq_error h
  have hrun : Reading source pieces rest (some e.fault) := ⟨hr, hm⟩
  have hcounter : (Run.ofSource source).line = e.line := by
    rw [hrun.ofSource_eq, hline]
    rfl
  have heq := hrun.line_eq
  rw [hcounter] at heq
  refine ⟨hcounter, fun hf => ?_, fun hf => ?_⟩
  · rw [heq, stopLines, Fault.lines_of_isExcess hf, Nat.add_zero]
  · have hend := hrun.physicalLine_pos_add_count
    rw [stopLines, Fault.lines_of_literal hf] at heq
    omega

/-- The line counter runs ahead of the physical line by exactly the line comments
that have been read: after each step, at the end of a source that scans, and in
the line that an error reports and the scanner keeps. -/
theorem line_eq_physicalLine_add_lineComments (source : List Char) :
    (∀ before step after, (Run.ofSource source).steps = before ++ step :: after →
      step.line = physicalLine source (step.pos + step.piece.length) +
        (before ++ [step]).countP (·.piece.isLineComment)) ∧
    (∀ tokens, scan source = .ok tokens →
      (Scanner.new source).resume.2.line =
        1 + source.count '\n' + (Run.ofSource source).lineComments) ∧
    ∀ e, scan source = .error e →
      (Scanner.new source).resume.2.line = e.line ∧
      (e.fault.IsExcess → e.line = physicalLine source (Run.ofSource source).pos +
        (Run.ofSource source).lineComments) ∧
      (e.fault = .openString ∨ e.fault = .openComment →
        e.line = 1 + source.count '\n' + (Run.ofSource source).lineComments) := by
  obtain ⟨pieces, rest, stop, h⟩ := exists_reading source
  exact ⟨fun _ _ _ hstep => h.step_line_eq hstep, fun _ hs => line_of_scan_eq_ok hs,
    fun _ hs => line_of_scan_eq_error hs⟩

/-- The comment puts the counter one line ahead of the text, in the middle of a source as
at its end, for a word that is too long as for a string that is never closed. -/
theorem line_after_line_comment :
    (∃ before step after, (Run.ofSource (['/', '/', '\n'] ++ ['"', '\n', '"'])).steps =
      before ++ step :: after ∧ step.line = 4 ∧
      step.line = physicalLine (['/', '/', '\n'] ++ ['"', '\n', '"']) 6 + 1) ∧
    scan (['/', '/', '\n'] ++ ['"', '\n', '"']) = .ok [⟨.stringConstant, ['\n']⟩] ∧
    (Scanner.new (['/', '/', '\n'] ++ ['"', '\n', '"'])).resume.2.line = 1 + 2 + 1 ∧
    scan (['/', '/', '\n'] ++ List.replicate 26 'x') = .error ⟨.wordTooLong, 3⟩ ∧
    3 = physicalLine (['/', '/', '\n'] ++ List.replicate 26 'x') 3 + 1 ∧
    scan (['/', '/', '\n'] ++ ['"', '\n']) = .error ⟨.openString, 4⟩ ∧
    4 = 1 + (['/', '/', '\n'] ++ ['"', '\n']).count '\n' + 1 := by
  have hcomment (after : List Char) :
      Reads (['/', '/', '\n'] ++ after) [.lineComment [], .newline] after := by
    refine .piece ?_ ?_ rfl (.piece trivial (fun _ _ => rfl) rfl (.stop _))
    · simp [Piece.WellFormed]
    · simp [Piece.EndsBefore, Piece.extendsBy]
  have hstring : Reads ['"', '\n', '"'] [.string ['\n']] [] :=
    .piece (by simp [Piece.WellFormed]) (Piece.endsBefore_nil _) rfl (.stop _)
  have hclosed := reads_append_iff.2 ⟨_, hcomment _, hstring⟩
  have hclosedRun : Reading _ _ _ none := ⟨hclosed, rfl⟩
  have hlong : Malformed .wordTooLong (List.replicate 26 'x') := by
    simpa using @Malformed.of_long_word (List.replicate 26 'x') ⟨'x', by decide⟩
      (by simp [isWordChar]) (by simp [maxWordLength]) []
  have hlongRun : Reading _ _ _ (some .wordTooLong) := ⟨hcomment _, hlong⟩
  have hopen : Malformed .openString ['"', '\n'] := .string (by simp)
  have hopenRun : Reading _ _ _ (some .openString) := ⟨hcomment _, hopen⟩
  obtain ⟨hstep, hend, _⟩ :=
    line_eq_physicalLine_add_lineComments (['/', '/', '\n'] ++ ['"', '\n', '"'])
  have hword := (line_eq_physicalLine_add_lineComments
    (['/', '/', '\n'] ++ List.replicate 26 'x')).2.2 _ ((hcomment _).scan_eq_error hlong)
  have hquote := (line_eq_physicalLine_add_lineComments
    (['/', '/', '\n'] ++ ['"', '\n'])).2.2 _ ((hcomment _).scan_eq_error hopen)
  have hsteps : (Run.ofSource (['/', '/', '\n'] ++ ['"', '\n', '"'])).steps =
      [⟨0, .lineComment [], 2⟩, ⟨2, .newline, 3⟩] ++ ⟨3, .string ['\n'], 4⟩ :: [] := by
    rw [hclosedRun.ofSource_eq]
    rfl
  refine ⟨⟨_, _, _, hsteps, rfl, hstep _ _ _ hsteps⟩, hclosed.scan_eq_ok, ?_,
    (hcomment _).scan_eq_error hlong, ?_, (hcomment _).scan_eq_error hopen, ?_⟩
  · rw [hend _ hclosed.scan_eq_ok, hclosedRun.lineComments_eq]
    rfl
  · have hline := hword.2.1 (.inl rfl)
    rwa [hlongRun.lineComments_eq, hlongRun.ofSource_eq] at hline
  · have hline := hquote.2.2 (.inl rfl)
    rwa [hopenRun.lineComments_eq] at hline

end Ceng
