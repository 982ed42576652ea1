/-!
# Lexical errors

A fault says what is wrong with a lexeme. A lexical error is a fault at a line.
A diagnostic is the form in which errors are reported: any detail and any line,
also one that no scan gives.
-/
namespace Ceng

/-- Why a lexeme is malformed. -/
inductive Fault
  | wordTooLong
  | numberTooLong (negative : Bool)
  | openString
  | openComment
deriving DecidableEq, Repr

def Fault.detail : Fault → String
  | .wordTooLong => "identifier too long"
  | .numberTooLong false => "int constant too long"
  | .numberTooLong true => "negative int constant too long"
  | .openString => "string constant not terminated"
  | .openComment => "multiline comment not terminated"

/-- What is reported about malformed source text. -/
structure Diagnostic where
  detail : String
  line : Int
deriving DecidableEq, Repr

/-- The text is `lexical error: <detail> [line: <line>]`, the form that other tools match on. -/
def Diagnostic.message (d : Diagnostic) : String :=
  "lexical error: " ++ d.detail ++ " [line: " ++ d.line.repr ++ "]"

/-- The first fault of a source text and the line at which it was noticed. -/
structure LexicalError where
  fault : Fault
  line : Nat
deriving DecidableEq, Repr

namespace LexicalError

def diagnostic (e : LexicalError) : Diagnostic := ⟨e.fault.detail, e.line⟩

def message (e : LexicalError) : String := e.diagnostic.message

end LexicalError

end Ceng
