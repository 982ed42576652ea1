/-!
# Paths

A path is kept in its normal form: the names in it, without empty names and
names for the same directory, and whether it starts at the root. Names for the
parent directory stay, as they mean something only in a file tree.

Names are Unicode text. Names of other bytes, which have no text, are left out.
-/
namespace Ceng

/-- Where a path starts. Exactly two slashes in front are kept apart from one;
three or more count as one. -/
inductive Path.Start
  | current
  | slash
  | doubleSlash
deriving DecidableEq, Repr

structure Path where
  start : Path.Start
  names : List String
deriving DecidableEq, Repr

namespace Path

def Start.ofText (text : String) : Start :=
  match text.toList.takeWhile (· == '/') with
  | [] => current
  | [_, _] => doubleSlash
  | _ => slash

def Start.text : Start → String
  | current => ""
  | slash => "/"
  | doubleSlash => "//"

/-- The path that a text names. -/
def ofText (text : String) : Path :=
  ⟨Start.ofText text, (text.splitOn "/").filter fun name => name != "" && name != "."⟩

/-- The normal form as text. No names at all from the current directory is a dot. -/
def text (p : Path) : String :=
  if p.start = .current ∧ p.names = [] then "." else p.start.text ++ "/".intercalate p.names

end Path
end Ceng
