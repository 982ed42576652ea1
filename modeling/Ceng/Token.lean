/-!
# Tokens

A token is a kind and the text of the lexeme. It does not record where it was
read: lines matter only while scanning. Any text may stand in a token of any
kind here; which texts a scan can give is a matter of `Ceng.Piece`.
-/
namespace Ceng

namespace Token

/-- The ten classes of tokens, in the order in which they are listed. -/
inductive Kind
  | identifier
  | stringConstant
  | intConstant
  | keyword
  | operator
  | leftParen
  | rightParen
  | leftBrace
  | rightBrace
  | statementEnd
deriving DecidableEq, Repr

namespace Kind

def all : List Kind :=
  [identifier, stringConstant, intConstant, keyword, operator,
    leftParen, rightParen, leftBrace, rightBrace, statementEnd]

/-- The name of a kind in a dump. -/
def label : Kind → String
  | identifier => "Identifier"
  | stringConstant => "StringConstant"
  | intConstant => "IntConstant"
  | keyword => "Keyword"
  | operator => "Operator"
  | leftParen => "LeftPar"
  | rightParen => "RightPar"
  | leftBrace => "LeftCurlyBracket"
  | rightBrace => "RightCurlyBracket"
  | statementEnd => "EndOfLine"

/-- The kind with exactly this label. -/
def ofLabel? (label : String) : Option Kind := all.find? (·.label == label)

theorem mem_all (k : Kind) : k ∈ all := by cases k <;> decide

theorem label_injective {a b : Kind} (h : a.label = b.label) : a = b := by
  revert h
  cases a <;> cases b <;> decide

theorem ofLabel?_label (k : Kind) : ofLabel? k.label = some k := by cases k <;> decide

end Kind
end Token

/-- A classified lexeme. The text is empty for the end of a statement. -/
structure Token where
  kind : Token.Kind
  text : List Char
deriving DecidableEq, Repr

/-- Words that are keywords and not identifiers. -/
def keywords : List (List Char) :=
  ["break", "case", "char", "const", "do", "else", "enum", "float", "for", "if", "int", "double",
    "long", "struct", "return", "static", "while"].map String.toList

end Ceng
