import Ceng.Proofs.Scan.Appending
import Ceng.Scanner

/-!
# Scanning on from the cursor

A scanner that has been used, and whose source may have changed since, scans like a
new scanner on what is left of its source. Only the cursor and the counter differ,
by what they had reached before. A failed call can be repeated at the same cursor.
If the source has only grown, the steps of all calls cover it up to the cursor; the
tokens of all calls are not claimed to be those of one scan.
-/
namespace Ceng

/-- The same error so many lines later. -/
def LexicalError.later (lines : Nat) (e : LexicalError) : LexicalError :=
  { e with line := lines + e.line }

theorem Run.result_shift (pos line : Nat) (run : Run) :
    (run.shift pos line).result = run.result.mapError (LexicalError.later line) := by
  have htokens : (run.shift pos line).tokens = run.tokens := by
    simp [Run.tokens, Run.shift, List.filterMap_map, Function.comp_def, Step.shift]
  have herror : (run.shift pos line).error? = run.error?.map (LexicalError.later line) := by
    simp [Run.error?, Run.shift, LexicalError.later, Function.comp_def]
  rw [Run.result, Run.result, herror, htokens]
  cases run.error? with
  | none => rfl
  | some e => rfl

namespace Scanner

variable {s : Scanner}

/-! ## One call -/

theorem resume_new (source : List Char) :
    (new source).resume =
      (scan source, ⟨source, (Run.ofSource source).pos, (Run.ofSource source).line⟩) := rfl

theorem run_eq_shift (h : 1 ≤ s.line) :
    s.run = (Run.ofSource (s.source.drop s.pos)).shift s.pos (s.line - 1) := by
  rw [run, Run.ofSource, ← runFrom_add, Nat.add_zero, Nat.sub_add_cancel h]

theorem resume_fst (h : 1 ≤ s.line) :
    s.resume.1 = (scan (s.source.drop s.pos)).mapError (LexicalError.later (s.line - 1)) := by
  change s.run.result = _
  rw [run_eq_shift h, Run.result_shift, scan]

theorem resume_snd (h : 1 ≤ s.line) :
    s.resume.2 = ⟨s.source, s.pos + (new (s.source.drop s.pos)).resume.2.pos,
      s.line - 1 + (new (s.source.drop s.pos)).resume.2.line⟩ := by
  change Scanner.mk s.source s.run.pos s.run.line = _
  rw [run_eq_shift h]
  rfl

theorem resume_of_length_le_pos (h : s.source.length ≤ s.pos) : s.resume = (.ok [], s) := by
  have hrun : s.run = ⟨[], s.pos, s.line, none⟩ := by
    rw [run, List.drop_eq_nil_of_le h, runFrom_nil]
  simp only [resume, hrun]
  rfl

/-- A scanner in front of a malformed lexeme stays there. -/
theorem resume_of_malformed {fault : Fault} (h : Malformed fault (s.source.drop s.pos)) :
    s.resume = (.error ⟨fault, s.line + fault.lines (s.source.drop s.pos)⟩,
      { s with line := s.line + fault.lines (s.source.drop s.pos) }) := by
  have hstops : Stops (some fault) (s.source.drop s.pos) := h
  have hrun : s.run = ⟨[], s.pos, s.line + fault.lines (s.source.drop s.pos), some fault⟩ := by
    rw [run, runFrom_of_stops hstops, stopLines]
  simp only [resume, hrun]
  rfl

/-- A failed call leaves the cursor at the malformed lexeme. -/
theorem malformed_of_resume_eq_error {e : LexicalError} (h : s.resume.1 = .error e) :
    Malformed e.fault (s.source.drop s.resume.2.pos) ∧ s.resume.2.line = e.line := by
  obtain ⟨pieces, rest, stop, hr⟩ := exists_reading (s.source.drop s.pos)
  have hrun := hr.runFrom_eq s.pos s.line
  change s.run = _ at hrun
  change s.run.result = _ at h
  change Malformed e.fault (s.source.drop s.run.pos) ∧ s.run.line = e.line
  have hrest : s.source.drop s.run.pos = rest := by
    rw [hrun, ← List.drop_drop, hr.reads.source_eq, List.drop_left]
  cases stop with
  | none => rw [hrun] at h; cases h
  | some fault =>
    have hm : Malformed fault rest := hr.stops
    rw [hrest]
    rw [hrun] at h ⊢
    cases h
    exact ⟨hm, rfl⟩

/-! ## Any number of actions -/

theorem le_perform (action : Action) :
    s.pos ≤ (s.perform action).pos ∧ s.line ≤ (s.perform action).line := by
  cases action with
  | resume =>
    obtain ⟨pieces, rest, stop, h⟩ := exists_reading (s.source.drop s.pos)
    change s.pos ≤ s.run.pos ∧ s.line ≤ s.run.line
    rw [run, h.runFrom_eq]
    constructor
    · exact Nat.le_add_right _ _
    · rw [Nat.add_assoc]
      exact Nat.le_add_right _ _
  | append text => exact ⟨Nat.le_refl _, Nat.le_refl _⟩
  | replace text => exact ⟨Nat.le_refl _, Nat.le_refl _⟩

theorem performAll_cons (s : Scanner) (action : Action) (actions : List Action) :
    s.performAll (action :: actions) = (s.perform action).performAll actions := rfl

theorem le_performAll (actions : List Action) :
    s.pos ≤ (s.performAll actions).pos ∧ s.line ≤ (s.performAll actions).line := by
  induction actions generalizing s with
  | nil => exact ⟨Nat.le_refl _, Nat.le_refl _⟩
  | cons action actions ih =>
    obtain ⟨hpos, hline⟩ := le_perform (s := s) action
    obtain ⟨hpos', hline'⟩ := ih (s := s.perform action)
    rw [performAll_cons]
    exact ⟨Nat.le_trans hpos hpos', Nat.le_trans hline hline'⟩

theorem one_le_line_performAll_new (initial : List Char) (actions : List Action) :
    1 ≤ ((new initial).performAll actions).line :=
  (le_performAll (s := new initial) actions).2

/-- Calls repeated in front of a malformed lexeme give the same fault at the same
cursor. Each moves the counter by the lines that are counted for the fault. -/
theorem resume_repeated {fault : Fault} {lines : Nat} (h : Malformed fault (s.source.drop s.pos))
    (hl : fault.lines (s.source.drop s.pos) = lines) (n : Nat) :
    (s.performAll (List.replicate n .resume)).resume =
      (.error ⟨fault, s.line + (n + 1) * lines⟩, { s with line := s.line + (n + 1) * lines }) := by
  have hfirst := resume_of_malformed h
  rw [hl] at hfirst
  induction n generalizing s with
  | zero =>
    rw [Nat.zero_add, Nat.one_mul]
    exact hfirst
  | succ n ih =>
    have hstep : s.perform .resume = { s with line := s.line + lines } := by
      rw [perform, hfirst]
    have hline : s.line + lines + (n + 1) * lines = s.line + (n + 1 + 1) * lines := by
      rw [Nat.succ_mul (n + 1)]
      omega
    have hagain := ih (s := { s with line := s.line + lines }) h hl (hl ▸ resume_of_malformed h)
    rw [List.replicate_succ, performAll_cons, hstep, hagain, hline]

theorem resume_repeated_of_isExcess {e : LexicalError} (h : s.resume.1 = .error e)
    (hf : e.fault.IsExcess) (n : Nat) :
    (s.resume.2.performAll (List.replicate n .resume)).resume = (.error e, s.resume.2) := by
  obtain ⟨hm, hline⟩ := malformed_of_resume_eq_error h
  have he : e = ⟨e.fault, s.resume.2.line⟩ := by rw [hline]
  rw [resume_repeated hm (Fault.lines_of_isExcess hf _) n, Nat.mul_zero, Nat.add_zero, ← he]

theorem resume_repeated_of_literal {e : LexicalError} (h : s.resume.1 = .error e)
    (hf : e.fault = .openString ∨ e.fault = .openComment) (n : Nat) :
    (s.resume.2.performAll (List.replicate n .resume)).resume =
      (.error ⟨e.fault, e.line + (n + 1) * (s.source.drop s.resume.2.pos).count '\n'⟩,
        { s.resume.2 with
          line := e.line + (n + 1) * (s.source.drop s.resume.2.pos).count '\n' }) := by
  obtain ⟨hm, hline⟩ := malformed_of_resume_eq_error h
  rw [resume_repeated hm (Fault.lines_of_literal hf _) n, hline]
  rfl

/-! ## What the calls have read -/

/-- The steps of all the calls among the actions, in order. -/
def history (s : Scanner) : List Action → List Step
  | [] => []
  | .resume :: actions => s.run.steps ++ (s.perform .resume).history actions
  | action :: actions => (s.perform action).history actions

/-- Each step begins where the one before it has ended. -/
def Tiles : Nat → List Step → Nat → Prop
  | start, [], stop => start = stop
  | start, step :: steps, stop => step.pos = start ∧ Tiles (start + step.piece.length) steps stop

/-- The steps have consumed the source up to the cursor, without gap or overlap. -/
structure Covered (s : Scanner) (steps : List Step) : Prop where
  pos_le_length : s.pos ≤ s.source.length
  tiles : Tiles 0 steps s.pos
  text_eq : steps.flatMap (·.piece.text) = s.source.take s.pos

theorem Tiles.append {start middle stop : Nat} {steps more : List Step}
    (h : Tiles start steps middle) (hm : Tiles middle more stop) :
    Tiles start (steps ++ more) stop := by
  induction steps generalizing start with
  | nil =>
    obtain rfl : start = middle := h
    exact hm
  | cons step steps ih => exact ⟨h.1, ih h.2⟩

theorem tiles_stepsFrom (pos line : Nat) (pieces : List Piece) :
    Tiles pos (stepsFrom pos line pieces) (pos + (textOf pieces).length) := by
  induction pieces generalizing pos line with
  | nil => exact (Nat.add_zero pos).symm
  | cons p pieces ih =>
    have hrest := ih (pos + p.length) (line + p.lines)
    rw [textOf_cons, List.length_append, ← Nat.add_assoc]
    exact ⟨rfl, hrest⟩

theorem flatMap_text_stepsFrom (pos line : Nat) (pieces : List Piece) :
    (stepsFrom pos line pieces).flatMap (·.piece.text) = textOf pieces := by
  induction pieces generalizing pos line with
  | nil => rfl
  | cons p pieces ih => rw [stepsFrom, List.flatMap_cons, ih, textOf_cons]

theorem covered_new (source : List Char) : (new source).Covered [] :=
  ⟨Nat.zero_le _, rfl, rfl⟩

theorem Covered.append {steps : List Step} (h : s.Covered steps) (text : List Char) :
    (s.append text).Covered steps := by
  refine ⟨?_, h.tiles, ?_⟩
  · change s.pos ≤ (s.source ++ text).length
    rw [List.length_append]
    have hle := h.pos_le_length
    omega
  · change _ = (s.source ++ text).take s.pos
    rw [List.take_append_of_le_length h.pos_le_length]
    exact h.text_eq

/-- A call goes on covering from the cursor, also one that fails. -/
theorem Covered.resume {steps : List Step} (h : s.Covered steps) :
    s.resume.2.Covered (steps ++ s.run.steps) := by
  obtain ⟨pieces, rest, stop, hr⟩ := exists_reading (s.source.drop s.pos)
  have hrun := hr.runFrom_eq s.pos s.line
  change s.run = _ at hrun
  have hsource : s.source = s.source.take s.pos ++ (textOf pieces ++ rest) := by
    rw [← hr.reads.source_eq, List.take_append_drop]
  have hpos : (s.source.take s.pos).length = s.pos := List.length_take_of_le h.pos_le_length
  have hlength := congrArg List.length hsource
  simp only [List.length_append, hpos] at hlength
  have htake : s.source.take (s.pos + (textOf pieces).length) =
      s.source.take s.pos ++ textOf pieces := by
    rw [List.take_add, hr.reads.source_eq, List.take_left]
  refine ⟨?_, ?_, ?_⟩
  · change s.run.pos ≤ s.source.length
    rw [hrun]
    change s.pos + (textOf pieces).length ≤ _
    omega
  · change Tiles 0 _ s.run.pos
    rw [hrun]
    exact h.tiles.append (tiles_stepsFrom _ _ _)
  · change _ = s.source.take s.run.pos
    rw [hrun, List.flatMap_append, flatMap_text_stepsFrom, h.text_eq]
    exact htake.symm

theorem Covered.performAll {steps : List Step} {actions : List Action} (h : s.Covered steps)
    (ha : ∀ text, Action.replace text ∉ actions) :
    (s.performAll actions).Covered (steps ++ s.history actions) := by
  induction actions generalizing s steps with
  | nil => rw [history, List.append_nil]; exact h
  | cons action actions ih =>
    have hrest : ∀ text, Action.replace text ∉ actions := fun text hm =>
      ha text (List.mem_cons_of_mem action hm)
    rw [performAll_cons]
    cases action with
    | resume =>
      rw [history, ← List.append_assoc]
      exact ih h.resume hrest
    | append text => exact ih (h.append text) hrest
    | replace text => exact absurd List.mem_cons_self (ha text)

/-! ## Sessions -/

/-- After any actions a scanner scans on like a new one on what is left, moved on by its
cursor and counter. Neither of them ever decreases. A failed call can be repeated at
the same cursor, and counts the lines of an open literal again each time. The calls
of a session that never replaces the source have covered it up to the cursor. -/
theorem resume_after_actions {initial : List Char} {actions : List Action} {s : Scanner}
    (hs : (new initial).performAll actions = s) :
    s.resume.1 = (scan (s.source.drop s.pos)).mapError (LexicalError.later (s.line - 1)) ∧
    s.resume.2 = ⟨s.source, s.pos + (new (s.source.drop s.pos)).resume.2.pos,
      s.line - 1 + (new (s.source.drop s.pos)).resume.2.line⟩ ∧
    (s.source.length ≤ s.pos → s.resume = (.ok [], s)) ∧
    (∀ more, s.pos ≤ (s.performAll more).pos ∧ s.line ≤ (s.performAll more).line) ∧
    (∀ e, s.resume.1 = .error e →
      Malformed e.fault (s.source.drop s.resume.2.pos) ∧ s.resume.2.line = e.line ∧
      ∀ n, let again := s.resume.2.performAll (List.replicate n .resume)
        (e.fault.IsExcess → again.resume = (.error e, s.resume.2)) ∧
        (e.fault = .openString ∨ e.fault = .openComment → again.resume =
          (.error ⟨e.fault, e.line + (n + 1) * (s.source.drop s.resume.2.pos).count '\n'⟩,
            { s.resume.2 with
              line := e.line + (n + 1) * (s.source.drop s.resume.2.pos).count '\n' }))) ∧
    ((∀ text, Action.replace text ∉ actions) → s.Covered ((new initial).history actions)) := by
  have hline : 1 ≤ s.line := hs ▸ one_le_line_performAll_new initial actions
  refine ⟨resume_fst hline, resume_snd hline, resume_of_length_le_pos, le_performAll,
    fun e he => ?_, fun ha => hs ▸ (covered_new initial).performAll ha⟩
  obtain ⟨hm, hcounter⟩ := malformed_of_resume_eq_error he
  exact ⟨hm, hcounter, fun n => ⟨fun hf => resume_repeated_of_isExcess he hf n,
    fun hf => resume_repeated_of_literal he hf n⟩⟩

/-- An open string holds the cursor and counts its newline at each call, until another
source ends before the cursor. A number that is too long counts nothing. -/
theorem resume_after_open_string :
    (new ['x', '"', '\n']).performAll [.resume] = ⟨['x', '"', '\n'], 1, 2⟩ ∧
    (resume ⟨['x', '"', '\n'], 1, 2⟩).1 = .error ⟨.openString, 3⟩ ∧
    (∀ n, (performAll ⟨['x', '"', '\n'], 1, 3⟩ (List.replicate n .resume)).resume =
      (.error ⟨.openString, 3 + (n + 1) * 1⟩, ⟨['x', '"', '\n'], 1, 3 + (n + 1) * 1⟩)) ∧
    Covered ⟨['x', '"', '\n'], 1, 2⟩ ((new ['x', '"', '\n']).history [.resume]) ∧
    resume ⟨[], 1, 2⟩ = (.ok [], ⟨[], 1, 2⟩) ∧
    (new (List.replicate 11 '7')).resume.1 = .error ⟨.numberTooLong false, 1⟩ ∧
    ∀ n, ((new (List.replicate 11 '7')).resume.2.performAll (List.replicate n .resume)).resume =
      (.error ⟨.numberTooLong false, 1⟩, (new (List.replicate 11 '7')).resume.2) := by
  have hopen : Malformed .openString ['"', '\n'] := .string (by simp)
  have hread : Reads ['x', '"', '\n'] [.word ['x']] ['"', '\n'] := by
    refine .piece ?_ ?_ rfl (.stop _)
    all_goals simp [Piece.WellFormed, Piece.EndsBefore, Piece.extendsBy, isWordStart, isWordChar,
      maxWordLength]
  have hrun : Reading _ _ _ (some .openString) := ⟨hread, hopen⟩
  have hfirst : (new ['x', '"', '\n']).performAll [.resume] = ⟨['x', '"', '\n'], 1, 2⟩ := by
    change (new _).resume.2 = _
    rw [resume_new, hrun.ofSource_eq]
    rfl
  have hreplaced : (new ['x', '"', '\n']).performAll [.resume, .replace []] = ⟨[], 1, 2⟩ :=
    congrArg (fun s : Scanner => s.replace []) hfirst
  have hsecond := resume_of_malformed (s := ⟨['x', '"', '\n'], 1, 2⟩) hopen
  have hlong : Malformed (.numberTooLong false) (List.replicate 11 '7') := by
    simpa using
      @Malformed.of_long_number (List.replicate 11 '7') (by simp) (by simp [maxDigits]) false []
  have hdigits := congrArg Prod.fst (resume_of_malformed (s := new (List.replicate 11 '7')) hlong)
  obtain ⟨_, _, _, _, herror, hcovered⟩ := resume_after_actions hfirst
  obtain ⟨_, _, hend, _⟩ := resume_after_actions hreplaced
  obtain ⟨_, _, _, _, hexcess, _⟩ :=
    @resume_after_actions (List.replicate 11 '7') [] _ rfl
  refine ⟨hfirst, congrArg Prod.fst hsecond, fun n => ?_, hcovered (by simp),
    hend (Nat.zero_le _), hdigits, fun n => ((hexcess _ hdigits).2.2 n).1 (.inr ⟨false, rfl⟩)⟩
  have hagain := ((herror _ (congrArg Prod.fst hsecond)).2.2 n).2 (.inl rfl)
  rwa [hsecond] at hagain

end Scanner
end Ceng
