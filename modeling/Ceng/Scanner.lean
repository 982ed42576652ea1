import Ceng.Scan

/-!
# A scanner that stays open

A scanner keeps its source, its cursor and its line counter between calls. The
source may grow or change under the cursor, also so that the cursor lies beyond
its end; there is nothing to read then.
-/
namespace Ceng

structure Scanner where
  source : List Char
  pos : Nat
  line : Nat
deriving DecidableEq, Repr

namespace Scanner

/-- A scanner at the start of its source. -/
def new (source : List Char) : Scanner := ⟨source, 0, 1⟩

/-- The run over what is left of the source. -/
def run (s : Scanner) : Run := runFrom s.pos s.line (s.source.drop s.pos)

/-- Reads on from the cursor. After an error the cursor is at the bad lexeme and
the counter keeps what it has counted. -/
def resume (s : Scanner) : Except LexicalError (List Token) × Scanner :=
  (s.run.result, { s with pos := s.run.pos, line := s.run.line })

/-- Puts more text after the source. -/
def append (s : Scanner) (text : List Char) : Scanner := { s with source := s.source ++ text }

/-- Replaces the source under the cursor. -/
def replace (s : Scanner) (text : List Char) : Scanner := { s with source := text }

/-- What can be done with an open scanner. -/
inductive Action
  | resume
  | append (text : List Char)
  | replace (text : List Char)
deriving DecidableEq, Repr

def perform (s : Scanner) : Action → Scanner
  | .resume => s.resume.2
  | .append text => s.append text
  | .replace text => s.replace text

/-- The scanner after all the actions, in order. -/
def performAll (s : Scanner) (actions : List Action) : Scanner := actions.foldl perform s

end Scanner
end Ceng
