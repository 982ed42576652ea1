import Ceng.Piece.Reader

/-!
# The lexical grammar

The grammar says which pieces are well formed, where a piece ends, and which
text cannot begin with any piece. It does not read: a reading of a source is any
list of well-formed pieces that end where the next one begins, with the text
that is left. `Ceng.Grammar.Reading` ties it to the reader.
-/
namespace Ceng

/-- Characters that lexemes and comment marks are made of. -/
def isSignificant (c : Char) : Bool :=
  isWordChar c ||
    [';', '-', '*', '/', '+', '=', '<', '>', '(', ')', '\x7b', '\x7d', '"'].contains c

/-- Characters without meaning, which are passed over one by one. -/
def isSkippable (c : Char) : Bool := !isSignificant c && c != '\n'

namespace Piece

/-- The pieces of the grammar, apart from what follows them. -/
def WellFormed : Piece → Prop
  | word text =>
    (∃ c ∈ text.head?, isWordStart c = true) ∧ (∀ c ∈ text, isWordChar c = true) ∧
      text.length ≤ maxWordLength
  | number _ digits =>
    digits ≠ [] ∧ (∀ c ∈ digits, c.isDigit = true) ∧ digits.length ≤ maxDigits
  | string body => '"' ∉ body
  | blockComment body => ¬ ['*', '/'] <:+: body
  | lineComment body => '\n' ∉ body
  | skipped c => isSkippable c = true
  | operator _ | bracket _ | statementEnd | newline => True

/-- Whether a character right after the piece would have been read with it. -/
def extendsBy : Piece → Char → Bool
  | word _, c => isWordChar c
  | number _ _, c => c.isDigit
  | operator .plus, c => c == '+'
  | operator .minus, c => c == '-' || c.isDigit
  | operator .divide, c => c == '*' || c == '/'
  | operator .assign, c | operator .less, c | operator .greater, c => c == '='
  | lineComment _, c => c != '\n'
  | operator _, _ | bracket _, _ | statementEnd, _ | string _, _ | blockComment _, _
  | newline, _ | skipped _, _ => false

/-- The piece ends where the given text begins. -/
def EndsBefore (p : Piece) (after : List Char) : Prop := ∀ c ∈ after.head?, p.extendsBy c = false

end Piece

/-- The text begins with a lexeme that no piece can hold. -/
inductive Malformed : Fault → List Char → Prop
  | word {text rest : List Char} : (∃ c ∈ text.head?, isWordStart c = true) →
      (∀ c ∈ text, isWordChar c = true) → maxWordLength < text.length →
      (∀ c ∈ rest.head?, isWordChar c = false) → Malformed .wordTooLong (text ++ rest)
  | number {negative : Bool} {digits rest : List Char} : (∀ c ∈ digits, c.isDigit = true) →
      maxDigits < digits.length → (∀ c ∈ rest.head?, c.isDigit = false) →
      Malformed (.numberTooLong negative) ((if negative then ['-'] else []) ++ digits ++ rest)
  | string {rest : List Char} : '"' ∉ rest → Malformed .openString ('"' :: rest)
  | comment {rest : List Char} : ¬ ['*', '/'] <:+: rest → Malformed .openComment ('/' :: '*' :: rest)

/-- A source read as these pieces, with this text left after them. -/
inductive Reads : List Char → List Piece → List Char → Prop
  | stop (rest : List Char) : Reads rest [] rest
  | piece {p : Piece} {pieces : List Piece} {source after rest : List Char} :
      p.WellFormed → p.EndsBefore after → source = p.text ++ after → Reads after pieces rest →
      Reads source (p :: pieces) rest

end Ceng
