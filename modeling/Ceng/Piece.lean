import Ceng.Alphabet
import Ceng.Token

/-!
# Pieces of source text

Source text is a sequence of pieces: the lexemes that give tokens, the comments,
the newlines, and the single characters that are passed over. A piece knows its
text, the token it gives, and how far it moves the line counter. The type does
not say which pieces are well formed.
-/
namespace Ceng

/-- The twelve operators. -/
inductive Operator
  | plus | increment
  | minus | decrement
  | times | divide
  | assign | equal
  | less | lessEqual
  | greater | greaterEqual
deriving DecidableEq, Repr

def Operator.text : Operator → List Char
  | .plus => ['+']
  | .increment => ['+', '+']
  | .minus => ['-']
  | .decrement => ['-', '-']
  | .times => ['*']
  | .divide => ['/']
  | .assign => ['=']
  | .equal => ['=', '=']
  | .less => ['<']
  | .lessEqual => ['<', '=']
  | .greater => ['>']
  | .greaterEqual => ['>', '=']

inductive Bracket
  | leftParen | rightParen | leftBrace | rightBrace
deriving DecidableEq, Repr

namespace Bracket

def char : Bracket → Char
  | leftParen => '('
  | rightParen => ')'
  | leftBrace => '\x7b'
  | rightBrace => '\x7d'

def kind : Bracket → Token.Kind
  | leftParen => .leftParen
  | rightParen => .rightParen
  | leftBrace => .leftBrace
  | rightBrace => .rightBrace

end Bracket

/-- One step of reading. A comment carries its body: what stands between the
delimiters of a block comment, or after the slashes of a line comment. The
newline after a line comment is a piece of its own. -/
inductive Piece
  | word (text : List Char)
  | number (negative : Bool) (digits : List Char)
  | operator (op : Operator)
  | bracket (b : Bracket)
  | statementEnd
  | string (body : List Char)
  | blockComment (body : List Char)
  | lineComment (body : List Char)
  | newline
  | skipped (c : Char)
deriving DecidableEq, Repr

namespace Piece

/-- The characters of the source that make up the piece. -/
def text : Piece → List Char
  | word text => text
  | number negative digits => (if negative then ['-'] else []) ++ digits
  | operator op => op.text
  | bracket b => [b.char]
  | statementEnd => [';']
  | string body => '"' :: (body ++ ['"'])
  | blockComment body => '/' :: '*' :: (body ++ ['*', '/'])
  | lineComment body => '/' :: '/' :: body
  | newline => ['\n']
  | skipped c => [c]

/-- The number of characters consumed. -/
def length (p : Piece) : Nat := p.text.length

/-- The token that the piece gives. A string gives its body without the quotes. -/
def token? : Piece → Option Token
  | word text => some ⟨if text ∈ keywords then .keyword else .identifier, text⟩
  | number negative digits => some ⟨.intConstant, (number negative digits).text⟩
  | operator op => some ⟨.operator, op.text⟩
  | bracket b => some ⟨b.kind, [b.char]⟩
  | statementEnd => some ⟨.statementEnd, []⟩
  | string body => some ⟨.stringConstant, body⟩
  | blockComment _ | lineComment _ | newline | skipped _ => none

/-- How far the piece moves the line counter. A line comment counts as a line,
though its newline counts once more when it is read. -/
def lines : Piece → Nat
  | newline => 1
  | string body => body.count '\n'
  | blockComment body => body.count '\n'
  | lineComment _ => 1
  | word _ | number _ _ | operator _ | bracket _ | statementEnd | skipped _ => 0

end Piece
end Ceng
