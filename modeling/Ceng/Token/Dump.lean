import Ceng.Token

/-!
# The token dump

A dump has one line per token, with a newline between two lines and none after
the last. Texts are written as they are, so a text with a newline in it spreads
over several lines of the file.
-/
namespace Ceng

namespace Token

/-- What every line begins with. -/
def lineStart : List Char := "Token\x7bType: ".toList

/-- What stands between the label and a text that is not empty. -/
def valueMark : List Char := ", Value: ".toList

/-- The line is `Token{Type: L}` for an empty text, otherwise `Token{Type: L, Value: T}`. -/
def line (t : Token) : List Char :=
  lineStart ++ t.kind.label.toList ++ (if t.text = [] then [] else valueMark ++ t.text) ++ ['\x7d']

theorem line_ne_nil (t : Token) : t.line ≠ [] := by simp [line]

end Token

/-- The lines of the tokens with a newline between each two of them. -/
def dump (tokens : List Token) : List Char :=
  List.intercalate ['\n'] (tokens.map Token.line)

@[simp] theorem dump_nil : dump [] = [] := by simp [dump]

@[simp] theorem dump_singleton (t : Token) : dump [t] = t.line := by simp [dump]

theorem dump_cons_cons (t u : Token) (rest : List Token) :
    dump (t :: u :: rest) = t.line ++ '\n' :: dump (u :: rest) := by simp [dump]

/-- Only the empty list of tokens has an empty dump. -/
theorem dump_eq_nil_iff {tokens : List Token} : dump tokens = [] ↔ tokens = [] := by
  match tokens with
  | [] => simp
  | [t] => simp [Token.line_ne_nil]
  | t :: u :: rest => simp [dump_cons_cons]

end Ceng
