import Ceng.Files.Tree

/-!
# Loading source files

A source file is loaded as bytes, whatever they are. Loading changes nothing.
-/
namespace Ceng

/-- A source file that cannot be read, in the words of the report. -/
structure LoadError where
  path : String
  reason : String
deriving DecidableEq, Repr

namespace LoadError

def ofFileError (e : FileError) : LoadError := ⟨e.path.text, e.cause.text⟩

/-- The path is shown as it is, without quoting what is in it. -/
def message (e : LoadError) : String :=
  "cannot read source file '" ++ e.path ++ "': " ++ e.reason

end LoadError

namespace Tree

def load (t : Tree) (p : Path) : Except LoadError Bytes :=
  (t.read p).mapError fun cause => .ofFileError ⟨cause, p⟩

end Tree
end Ceng
