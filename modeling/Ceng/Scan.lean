import Ceng.Piece.Reader

/-!
# Scanning

A run reads pieces one after the other until the source ends or a lexeme is
malformed. It carries a cursor and a line counter from piece to piece, so that
a run may start anywhere and go on where an earlier one stopped.
-/
namespace Ceng

/-- A piece read at a position, with the line counter after it. -/
structure Step where
  pos : Nat
  piece : Piece
  line : Nat
deriving DecidableEq, Repr

/-- All the steps of a run, then the cursor, the line counter and the fault that
stopped it. The cursor of a stopped run is at the start of the bad lexeme. -/
structure Run where
  steps : List Step
  pos : Nat
  line : Nat
  fault : Option Fault
deriving DecidableEq, Repr

/-- The lines that are counted before a fault is reported: a literal that is
never closed takes the rest of the source with it. -/
def Fault.lines : Fault → List Char → Nat
  | .openString, rest | .openComment, rest => rest.count '\n'
  | .wordTooLong, _ | .numberTooLong _, _ => 0

/-- Reads the source from its front, with the cursor at `pos` and the counter at
`line`. -/
def runFrom (pos line : Nat) (source : List Char) : Run :=
  match source with
  | [] => ⟨[], pos, line, none⟩
  | c :: rest =>
    match _h : readPiece c rest with
    | .error fault => ⟨[], pos, line + fault.lines rest, some fault⟩
    | .ok (p, after) =>
      let run := runFrom (pos + p.length) (line + p.lines) after
      { run with steps := ⟨pos, p, line + p.lines⟩ :: run.steps }
termination_by source.length
decreasing_by exact length_lt_of_readPiece ‹_›

@[simp] theorem runFrom_nil (pos line : Nat) : runFrom pos line [] = ⟨[], pos, line, none⟩ := by
  rw [runFrom]

theorem runFrom_of_error {c : Char} {rest : List Char} {fault : Fault}
    (h : readPiece c rest = .error fault) (pos line : Nat) :
    runFrom pos line (c :: rest) = ⟨[], pos, line + fault.lines rest, some fault⟩ := by
  rw [runFrom]
  split
  · next h' => cases h.symm.trans h'; rfl
  · next h' => cases h.symm.trans h'

theorem runFrom_of_ok {c : Char} {rest after : List Char} {p : Piece}
    (h : readPiece c rest = .ok (p, after)) (pos line : Nat) :
    runFrom pos line (c :: rest) =
      { runFrom (pos + p.length) (line + p.lines) after with
        steps := ⟨pos, p, line + p.lines⟩ ::
          (runFrom (pos + p.length) (line + p.lines) after).steps } := by
  rw [runFrom]
  split
  · next h' => cases h.symm.trans h'
  · next h' => cases h.symm.trans h'; rfl

namespace Run

/-- The tokens of the steps, in order. -/
def tokens (run : Run) : List Token := run.steps.filterMap (·.piece.token?)

/-- The error that stopped the run, at the line that the counter had reached. -/
def error? (run : Run) : Option LexicalError := run.fault.map (⟨·, run.line⟩)

/-- The tokens of a run that reached the end of the source. A fault discards the
tokens read before it. -/
def result (run : Run) : Except LexicalError (List Token) :=
  match run.error? with
  | none => .ok run.tokens
  | some e => .error e

end Run

/-- The run over a whole source text. Lines count from one. -/
def Run.ofSource (source : List Char) : Run := runFrom 0 1 source

/-- The tokens of a source text, or its first lexical error. -/
def scan (source : List Char) : Except LexicalError (List Token) := (Run.ofSource source).result

end Ceng
