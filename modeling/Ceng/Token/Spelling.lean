import Ceng.Grammar

/-!
# Spelling of tokens

The tokens that a scan can give are the well-formed ones. Each has a spelling,
the shortest source text that gives it. Two tokens fuse if the spelling of the
second one cannot follow that of the first without something between them.
-/
namespace Ceng.Token

/-- The tokens that source text can give. -/
def WellFormed (t : Token) : Prop :=
  match t.kind with
  | .identifier => (Piece.word t.text).WellFormed ∧ t.text ∉ keywords
  | .keyword => t.text ∈ keywords
  | .intConstant =>
    ∃ negative digits, (Piece.number negative digits).WellFormed ∧
      t.text = (Piece.number negative digits).text
  | .operator => ∃ op : Operator, t.text = op.text
  | .leftParen => t.text = ['(']
  | .rightParen => t.text = [')']
  | .leftBrace => t.text = ['\x7b']
  | .rightBrace => t.text = ['\x7d']
  | .statementEnd => t.text = []
  | .stringConstant => '"' ∉ t.text

def spelling (t : Token) : List Char :=
  match t.kind with
  | .statementEnd => [';']
  | .stringConstant => '"' :: (t.text ++ ['"'])
  | _ => t.text

def isWord (t : Token) : Bool := t.kind == .identifier || t.kind == .keyword

def isNumber (t : Token) : Bool := t.kind == .intConstant

/-- A number without a sign. -/
def isUnsigned (t : Token) : Bool := t.isNumber && t.text.head? != some '-'

def isOperator (t : Token) (op : Operator) : Bool := t.kind == .operator && t.text == op.text

/-- Whether the second token would be read differently right after the first. -/
def fuses (t u : Token) : Bool :=
  t.isWord && (u.isWord || u.isUnsigned) ||
  t.isNumber && u.isUnsigned ||
  t.isOperator .minus && (u.isOperator .minus || u.isOperator .decrement || u.isNumber) ||
  t.isOperator .plus && (u.isOperator .plus || u.isOperator .increment) ||
  (t.isOperator .assign || t.isOperator .less || t.isOperator .greater) &&
    (u.isOperator .assign || u.isOperator .equal) ||
  t.isOperator .divide && (u.isOperator .divide || u.isOperator .times)

end Ceng.Token
