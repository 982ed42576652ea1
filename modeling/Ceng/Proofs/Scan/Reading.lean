import Ceng.Grammar.Reading
import Ceng.Scan

/-!
# Runs and readings

A reading takes pieces of the grammar off the front of a source until the source
ends or a malformed lexeme stands there. Every source has exactly one, and the
run over the source is determined by it. What is proved about runs elsewhere is
proved about readings, without opening the reader.
-/
namespace Ceng

/-! ## Pieces in sequence -/

def textOf (pieces : List Piece) : List Char := pieces.flatMap Piece.text

def linesOf : List Piece → Nat
  | [] => 0
  | p :: pieces => p.lines + linesOf pieces

def tokensOf (pieces : List Piece) : List Token := pieces.filterMap Piece.token?

/-- The same step with the cursor and the line counter further on. -/
def Step.shift (pos line : Nat) (step : Step) : Step :=
  { step with pos := pos + step.pos, line := line + step.line }

/-- The same run from a later cursor and a later line. -/
def Run.shift (pos line : Nat) (run : Run) : Run :=
  ⟨run.steps.map (Step.shift pos line), pos + run.pos, line + run.line, run.fault⟩

/-- The steps that read the pieces, with the cursor and the line counter at the
start of them. -/
def stepsFrom (pos line : Nat) : List Piece → List Step
  | [] => []
  | p :: pieces => ⟨pos, p, line + p.lines⟩ :: stepsFrom (pos + p.length) (line + p.lines) pieces

@[simp] theorem textOf_nil : textOf [] = [] := rfl

@[simp] theorem textOf_cons (p : Piece) (pieces : List Piece) :
    textOf (p :: pieces) = p.text ++ textOf pieces := rfl

@[simp] theorem textOf_append (ps qs : List Piece) :
    textOf (ps ++ qs) = textOf ps ++ textOf qs := by
  simp [textOf]

@[simp] theorem linesOf_nil : linesOf [] = 0 := rfl

@[simp] theorem linesOf_cons (p : Piece) (pieces : List Piece) :
    linesOf (p :: pieces) = p.lines + linesOf pieces := rfl

@[simp] theorem linesOf_append (ps qs : List Piece) :
    linesOf (ps ++ qs) = linesOf ps + linesOf qs := by
  induction ps with
  | nil => simp
  | cons p ps ih => simp [ih, Nat.add_assoc]

@[simp] theorem tokensOf_append (ps qs : List Piece) :
    tokensOf (ps ++ qs) = tokensOf ps ++ tokensOf qs := by
  simp [tokensOf]

theorem stepsFrom_append (pos line : Nat) (ps qs : List Piece) :
    stepsFrom pos line (ps ++ qs) =
      stepsFrom pos line ps ++ stepsFrom (pos + (textOf ps).length) (line + linesOf ps) qs := by
  induction ps generalizing pos line with
  | nil => simp [stepsFrom]
  | cons p ps ih =>
    simp only [List.cons_append, stepsFrom, ih, textOf_cons, linesOf_cons, List.length_append,
      Piece.length, Nat.add_assoc]

theorem stepsFrom_add (pos line n m : Nat) (pieces : List Piece) :
    stepsFrom (n + pos) (m + line) pieces = (stepsFrom pos line pieces).map (Step.shift n m) := by
  induction pieces generalizing pos line with
  | nil => rfl
  | cons p pieces ih =>
    simp only [stepsFrom, List.map_cons, Step.shift, Nat.add_assoc, ih]

@[simp] theorem map_piece_stepsFrom (pos line : Nat) (pieces : List Piece) :
    (stepsFrom pos line pieces).map (·.piece) = pieces := by
  induction pieces generalizing pos line with
  | nil => rfl
  | cons p pieces ih => simp [stepsFrom, ih]

theorem filterMap_token_stepsFrom (pos line : Nat) (pieces : List Piece) :
    (stepsFrom pos line pieces).filterMap (·.piece.token?) = tokensOf pieces := by
  have h := List.filterMap_map (f := Step.piece) (g := Piece.token?)
    (l := stepsFrom pos line pieces)
  rw [map_piece_stepsFrom] at h
  exact h.symm

/-! ## Where a piece ends -/

theorem Piece.WellFormed.text_ne_nil {p : Piece} (h : p.WellFormed) : p.text ≠ [] := by
  cases p with
  | word text => obtain ⟨⟨c, hc, _⟩, _⟩ := h; rintro rfl; simp at hc
  | number negative digits => simp [Piece.text, h.1]
  | operator op => cases op <;> simp [Piece.text, Operator.text]
  | _ => simp [Piece.text]

theorem Piece.endsBefore_nil (p : Piece) : p.EndsBefore [] := by simp [EndsBefore]

theorem Piece.endsBefore_cons {p : Piece} {c : Char} {rest : List Char} :
    p.EndsBefore (c :: rest) ↔ p.extendsBy c = false := by
  simp [EndsBefore]

/-- Only the first character after a piece decides whether the piece ends there. -/
theorem Piece.EndsBefore.append {p : Piece} {after : List Char} (h : p.EndsBefore after)
    (hne : after ≠ []) (more : List Char) : p.EndsBefore (after ++ more) := by
  cases after with
  | nil => exact absurd rfl hne
  | cons c after => exact h

/-- A well-formed piece is determined by its text. -/
theorem Piece.eq_of_text_eq {p q : Piece} (hp : p.WellFormed) (hq : q.WellFormed)
    (h : p.text = q.text) : p = q := by
  cases ht : p.text with
  | nil => exact absurd ht hp.text_ne_nil
  | cons c text =>
    have hpt : p.text ++ [] = c :: text := by rw [ht, List.append_nil]
    have hqt : q.text ++ [] = c :: text := by rw [← h, hpt]
    have hr := (readPiece_complete hp p.endsBefore_nil hpt).symm.trans
      (readPiece_complete hq q.endsBefore_nil hqt)
    simpa using hr

/-! ## Readings -/

theorem Reads.source_eq {source rest : List Char} {pieces : List Piece}
    (h : Reads source pieces rest) : source = textOf pieces ++ rest := by
  induction h with
  | stop rest => rfl
  | piece _ _ hs _ ih => rw [hs, ih, textOf_cons, List.append_assoc]

theorem Reads.wellFormed {source rest : List Char} {pieces : List Piece}
    (h : Reads source pieces rest) : ∀ p ∈ pieces, p.WellFormed := by
  induction h with
  | stop rest => simp
  | piece hw _ _ _ ih => simpa using ⟨hw, ih⟩

theorem reads_append_iff {ps qs : List Piece} {source rest : List Char} :
    Reads source (ps ++ qs) rest ↔ ∃ middle, Reads source ps middle ∧ Reads middle qs rest := by
  constructor
  · intro h
    induction ps generalizing source with
    | nil => exact ⟨source, .stop source, h⟩
    | cons p ps ih =>
      cases h with
      | piece hw he hs hr =>
        obtain ⟨middle, hp, hq⟩ := ih hr
        exact ⟨middle, .piece hw he hs hp, hq⟩
  · rintro ⟨middle, hp, hq⟩
    induction hp with
    | stop rest => exact hq
    | piece hw he hs _ ih => exact .piece hw he hs (ih hq)

theorem reads_nil_iff {source rest : List Char} : Reads source [] rest ↔ source = rest := by
  constructor
  · intro h; cases h; rfl
  · rintro rfl; exact .stop source

/-- Text put after the source is left over with the rest, provided that it does
not go on with the last piece. Only a piece at the very end can be concerned. -/
theorem Reads.append {source rest : List Char} {pieces : List Piece} (h : Reads source pieces rest)
    {more : List Char} (hm : rest = [] → ∀ p ∈ pieces.getLast?, p.EndsBefore more) :
    Reads (source ++ more) pieces (rest ++ more) := by
  induction h with
  | stop rest => exact .stop _
  | @piece p pieces source after rest hw he hs hr ih =>
    -- A piece takes at least one character, so with nothing after it this one is the last.
    have hend : p.EndsBefore (after ++ more) := by
      by_cases ha : after = []
      · have hnil : textOf pieces ++ rest = [] := by rw [← hr.source_eq, ha]
        obtain ⟨ht, hrest⟩ := List.append_eq_nil_iff.1 hnil
        cases pieces with
        | nil => simpa [ha] using hm hrest p (by simp)
        | cons q pieces =>
          have hq := (hr.wellFormed q (by simp)).text_ne_nil
          exact absurd (List.append_eq_nil_iff.1 ht).1 hq
      · exact he.append ha more
    refine .piece hw hend (by rw [hs, List.append_assoc]) (ih fun hrest q hq => hm hrest q ?_)
    cases pieces with
    | nil => simp at hq
    | cons r pieces => simpa using hq

/-- Reading cannot go on: the source has ended, or a malformed lexeme comes. -/
def Stops : Option Fault → List Char → Prop
  | none, rest => rest = []
  | some fault, rest => Malformed fault rest

/-- The lines that are counted where reading stops. -/
def stopLines : Option Fault → List Char → Nat
  | none, _ => 0
  | some fault, rest => fault.lines rest

/-- A reading that goes as far as the source allows. -/
structure Reading (source : List Char) (pieces : List Piece) (rest : List Char)
    (stop : Option Fault) : Prop where
  reads : Reads source pieces rest
  stops : Stops stop rest

theorem Malformed.ne_nil {fault : Fault} {source : List Char} (h : Malformed fault source) :
    source ≠ [] := by
  cases h with
  | word hh _ _ _ => obtain ⟨c, hc, _⟩ := hh; intro hn; simp_all
  | number _ hl _ => intro hn; simp_all
  | _ => simp

/-- A literal does not begin with a newline, so its first character adds nothing to
the lines that are counted for it. -/
theorem Malformed.lines_tail {fault : Fault} {c : Char} {rest : List Char}
    (h : Malformed fault (c :: rest)) : fault.lines (c :: rest) = fault.lines rest := by
  cases fault with
  | wordTooLong => rfl
  | numberTooLong negative => rfl
  | openString => cases h; simp [Fault.lines]
  | openComment => cases h; simp [Fault.lines]

theorem runFrom_of_stops {stop : Option Fault} {rest : List Char} (h : Stops stop rest)
    (pos line : Nat) : runFrom pos line rest = ⟨[], pos, line + stopLines stop rest, stop⟩ := by
  cases stop with
  | none =>
    obtain rfl : rest = [] := h
    simp [stopLines]
  | some fault =>
    have hm : Malformed fault rest := h
    cases rest with
    | nil => exact absurd rfl hm.ne_nil
    | cons c rest => rw [runFrom_of_error (readPiece_eq_error_iff.2 hm), stopLines, hm.lines_tail]

theorem runFrom_piece {p : Piece} {source after : List Char} (hw : p.WellFormed)
    (he : p.EndsBefore after) (hs : source = p.text ++ after) (pos line : Nat) :
    runFrom pos line source =
      { runFrom (pos + p.length) (line + p.lines) after with
        steps := ⟨pos, p, line + p.lines⟩ ::
          (runFrom (pos + p.length) (line + p.lines) after).steps } := by
  cases source with
  | nil => exact absurd (List.append_eq_nil_iff.1 hs.symm).1 hw.text_ne_nil
  | cons c rest => exact runFrom_of_ok (readPiece_complete hw he hs.symm) pos line

/-- A run begins with the steps of any reading and goes on with what is left. -/
theorem runFrom_of_reads {source rest : List Char} {pieces : List Piece}
    (h : Reads source pieces rest) (pos line : Nat) :
    runFrom pos line source =
      { runFrom (pos + (textOf pieces).length) (line + linesOf pieces) rest with
        steps := stepsFrom pos line pieces ++
          (runFrom (pos + (textOf pieces).length) (line + linesOf pieces) rest).steps } := by
  induction h generalizing pos line with
  | stop rest => rfl
  | piece hw he hs _ ih =>
    rw [runFrom_piece hw he hs, ih]
    simp only [textOf_cons, linesOf_cons, stepsFrom, List.cons_append, List.length_append,
      Piece.length, Nat.add_assoc]

theorem exists_reading (source : List Char) :
    ∃ pieces rest stop, Reading source pieces rest stop := by
  induction hn : source.length using Nat.strongRecOn generalizing source with
  | ind n ih =>
    cases source with
    | nil => exact ⟨[], [], none, .stop [], rfl⟩
    | cons c tail =>
      cases hr : readPiece c tail with
      | error fault => exact ⟨[], c :: tail, some fault, .stop _, readPiece_eq_error_iff.1 hr⟩
      | ok result =>
        obtain ⟨p, after⟩ := result
        have hl := length_lt_of_readPiece hr
        obtain ⟨hw, he, hs⟩ := readPiece_eq_ok_iff.1 hr
        obtain ⟨pieces, rest, stop, h⟩ := ih after.length (by omega) after rfl
        exact ⟨p :: pieces, rest, stop, .piece hw he hs h.reads, h.stops⟩

namespace Reading

variable {source rest : List Char} {pieces : List Piece} {stop : Option Fault}

/-- The run over a source, said by its reading. -/
theorem runFrom_eq (h : Reading source pieces rest stop) (pos line : Nat) :
    runFrom pos line source =
      ⟨stepsFrom pos line pieces, pos + (textOf pieces).length,
        line + linesOf pieces + stopLines stop rest, stop⟩ := by
  rw [runFrom_of_reads h.reads, runFrom_of_stops h.stops, List.append_nil]

theorem ofSource_eq (h : Reading source pieces rest stop) :
    Run.ofSource source =
      ⟨stepsFrom 0 1 pieces, (textOf pieces).length,
        1 + linesOf pieces + stopLines stop rest, stop⟩ := by
  rw [Run.ofSource, h.runFrom_eq, Nat.zero_add]

theorem tokens_eq (h : Reading source pieces rest stop) :
    (Run.ofSource source).tokens = tokensOf pieces := by
  rw [h.ofSource_eq, Run.tokens, filterMap_token_stepsFrom]

/-- There is only one reading of a source. -/
theorem unique {pieces' : List Piece} {rest' : List Char} {stop' : Option Fault}
    (h : Reading source pieces rest stop) (h' : Reading source pieces' rest' stop') :
    pieces = pieces' ∧ rest = rest' ∧ stop = stop' := by
  have hrun := h.ofSource_eq.symm.trans h'.ofSource_eq
  simp only [Run.mk.injEq] at hrun
  obtain ⟨hsteps, _, _, hstop⟩ := hrun
  have hpieces : pieces = pieces' := by
    rw [← map_piece_stepsFrom 0 1 pieces, hsteps, map_piece_stepsFrom]
  have htext := h.reads.source_eq.symm.trans h'.reads.source_eq
  rw [hpieces] at htext
  exact ⟨hpieces, List.append_cancel_left htext, hstop⟩

end Reading

/-- What a run reads does not depend on where it starts. -/
theorem runFrom_add (pos line n m : Nat) (source : List Char) :
    runFrom (n + pos) (m + line) source = (runFrom pos line source).shift n m := by
  obtain ⟨pieces, rest, stop, h⟩ := exists_reading source
  rw [h.runFrom_eq, h.runFrom_eq, Run.shift]
  simp only [stepsFrom_add, Nat.add_assoc]

theorem Reads.scan_eq_ok {source : List Char} {pieces : List Piece} (h : Reads source pieces []) :
    scan source = .ok (tokensOf pieces) := by
  have hr : Reading source pieces [] none := ⟨h, rfl⟩
  rw [scan, Run.result, hr.tokens_eq, hr.ofSource_eq]
  rfl

theorem Reads.scan_eq_error {source rest : List Char} {pieces : List Piece} {fault : Fault}
    (h : Reads source pieces rest) (hm : Malformed fault rest) :
    scan source = .error ⟨fault, 1 + linesOf pieces + fault.lines rest⟩ := by
  have hr : Reading source pieces rest (some fault) := ⟨h, hm⟩
  rw [scan, Run.result, hr.ofSource_eq]
  rfl

/-- A scan that succeeds has read the whole source. -/
theorem reads_of_scan_eq_ok {source : List Char} {tokens : List Token}
    (h : scan source = .ok tokens) :
    ∃ pieces, Reads source pieces [] ∧ tokensOf pieces = tokens := by
  obtain ⟨pieces, rest, stop, hr, hs⟩ := exists_reading source
  cases stop with
  | none =>
    obtain rfl : rest = [] := hs
    rw [hr.scan_eq_ok] at h
    exact ⟨pieces, hr, Except.ok.inj h⟩
  | some fault => rw [hr.scan_eq_error hs] at h; cases h

/-- A scan that fails has read up to a malformed lexeme. -/
theorem reads_of_scan_eq_error {source : List Char} {fault : Fault} {line : Nat}
    (h : scan source = .error ⟨fault, line⟩) :
    ∃ pieces rest, Reads source pieces rest ∧ Malformed fault rest ∧
      line = 1 + linesOf pieces + fault.lines rest := by
  obtain ⟨pieces, rest, stop, hr, hs⟩ := exists_reading source
  cases stop with
  | none =>
    obtain rfl : rest = [] := hs
    rw [hr.scan_eq_ok] at h
    cases h
  | some fault' =>
    rw [hr.scan_eq_error hs] at h
    cases h
    exact ⟨pieces, rest, hr, hs, rfl⟩

end Ceng
