import Ceng.Scan

/-!
# Blanking comments

Comments are replaced by blanks of the same length, with their newlines kept.
What follows a fault is left as it is, and so is a comment that is never closed.
-/
namespace Ceng

/-- The text with a space for each character but the newlines. -/
def blank (text : List Char) : List Char := text.map fun c => if c = '\n' then c else ' '

/-- The text of a piece, blanked if it is a comment. -/
def Piece.withoutComment : Piece → List Char
  | .blockComment body => blank (blockComment body).text
  | .lineComment body => blank (lineComment body).text
  | p => p.text

/-- The source with its comments blanked, up to the first fault. -/
def blankComments (source : List Char) : List Char :=
  let run := Run.ofSource source
  run.steps.flatMap (·.piece.withoutComment) ++ source.drop run.pos

end Ceng
