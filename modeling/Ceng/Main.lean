import Ceng.Command.Run

/-!
# The cenglex command

The command on the files and streams of the machine. Everything that is decided
is decided in `Ceng.Command`; this module asks the operating system and prints.
-/
namespace Ceng.Command

/-- The cause with the number that the operating system gives for it. -/
def causeOfNumber (number : UInt32) (text : String) : FileError.Cause :=
  match [.notFound, .permissionDenied, .notDirectory, .isDirectory, .nameTooLong].find?
      fun cause : FileError.Cause => cause.number == number.toNat with
  | some cause => cause
  | none => .other number.toNat text

def causeOfError : IO.Error → FileError.Cause
  | .noFileOrDirectory _ number text | .permissionDenied _ number text
  | .inappropriateType _ number text | .invalidArgument _ number text
  | .resourceExhausted _ number text | .otherError number text => causeOfNumber number text
  | e => .other 5 (toString e)

/-- Reads a byte to see whether the text names a directory: opening one succeeds
and reading from it does not. -/
def isDirectoryOnDisk (text : String) : IO Bool := do
  try
    let handle ← IO.FS.Handle.mk text .read
    let _ ← handle.read 1
    return false
  catch e => return causeOfError e == .isDirectory

def loadFromDisk (path : Path) : IO (Except LoadError Bytes) := do
  try
    let handle ← IO.FS.Handle.mk path.text .read
    return .ok (← handle.readBinToEnd).toList
  catch e => return .error (.ofFileError ⟨causeOfError e, path⟩)

def writeToDisk (path : Path) (tokens : List Token) : IO (Except WriteError Nat) := do
  try
    let handle ← IO.FS.Handle.mk path.text .write
    match Latin1.encode (dump tokens) with
    | .error e => return .error (.cannotEncode e)
    | .ok bytes =>
      handle.write ⟨bytes.toArray⟩
      return .ok tokens.length
  catch e => return .error (.cannotOpen ⟨causeOfError e, path⟩)

def diskFiles : FileSystem IO := ⟨isDirectoryOnDisk, loadFromDisk, writeToDisk⟩

end Ceng.Command

def main (arguments : List String) : IO UInt32 := do
  let environment ← Ceng.Environment.read fun name => IO.getEnv name
  let output ← Ceng.Command.run Ceng.Command.diskFiles environment arguments
  IO.print (String.ofList output.stdout)
  IO.eprint (String.ofList output.stderr)
  return output.exitCode.number.toUInt32
