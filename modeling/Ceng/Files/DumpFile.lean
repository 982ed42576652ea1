import Ceng.Files.Tree
import Ceng.Token.Dump

/-!
# Dump files

A dump is written to a file as Latin-1. The file is opened, and so emptied,
before the text is encoded: text that cannot be encoded leaves it empty.
-/
namespace Ceng

inductive WriteError
  | cannotOpen (e : FileError)
  | cannotEncode (e : Latin1.EncodeError)
deriving DecidableEq, Repr

def WriteError.message : WriteError → String
  | .cannotOpen e => e.message
  | .cannotEncode e => e.message

namespace Tree

/-- Writes the dump of the tokens and counts them. -/
def writeDump (t : Tree) (p : Path) (tokens : List Token) : Except WriteError Nat × Tree :=
  match t.openForWriting p with
  | .error cause => (.error (.cannotOpen ⟨cause, p⟩), t)
  | .ok l =>
    match Latin1.encode (dump tokens) with
    | .error e => (.error (.cannotEncode e), t.set l (.file []))
    | .ok bytes => (.ok tokens.length, t.set l (.file bytes))

end Tree
end Ceng
