import Ceng.Files.Path
import Ceng.Text.Quoted

/-!
# File errors

Why the operating system refuses to open a file, with the number and the words
that it uses for each cause.
-/
namespace Ceng

namespace FileError

inductive Cause
  | notFound
  | permissionDenied
  | notDirectory
  | isDirectory
  | nameTooLong
  | other (number : Nat) (text : String)
deriving DecidableEq, Repr

def Cause.number : Cause → Nat
  | notFound => 2
  | permissionDenied => 13
  | notDirectory => 20
  | isDirectory => 21
  | nameTooLong => 36
  | other number _ => number

def Cause.text : Cause → String
  | notFound => "No such file or directory"
  | permissionDenied => "Permission denied"
  | notDirectory => "Not a directory"
  | isDirectory => "Is a directory"
  | nameTooLong => "File name too long"
  | other _ text => text

end FileError

structure FileError where
  cause : FileError.Cause
  path : Path
deriving DecidableEq, Repr

/-- The text is `[Errno N] <words>: <path in quotes>`. -/
def FileError.message (e : FileError) : String :=
  "[Errno " ++ e.cause.number.repr ++ "] " ++ e.cause.text ++ ": " ++ Text.quote e.path.text

end Ceng
