import Ceng.Command.Report
import Ceng.Scan
import Ceng.Settings
import Ceng.Token.DumpStream

/-!
# Running a job

A job is a run whose settings are fixed. It loads its source or takes the demo
program, scans it, and prints the dump or writes it to a file. What it asks of
the world goes through a `FileSystem`, so that the same job runs on a file tree
and on the files of a machine.
-/
namespace Ceng.Command

/-- What a command asks of the world. -/
structure FileSystem (m : Type → Type) where
  isDirectory : String → m Bool
  load : Path → m (Except LoadError Bytes)
  writeDump : Path → List Token → m (Except WriteError Nat)

/-- The files of a tree. -/
def treeFiles : FileSystem (StateM Tree) where
  isDirectory text := fun tree => (tree.isDirectory text, tree)
  load path := fun tree => (tree.load path, tree)
  writeDump path tokens := fun tree => tree.writeDump path tokens

structure Job where
  settings : Settings
  demo : Bool
  stdout : Bool
deriving DecidableEq, Repr

/-- A short program with a token of every kind. -/
def demoText : String := "/* demo program */
int main() \x7b
    int count = 10;
    char greeting = \"hello\";
    while (count >= -1) \x7b
        count--; // count down
    \x7d
    return 0;
\x7d
"

def demoSource : Bytes := demoText.toList.map Char.toUInt8

namespace Job

/-- Status lines leave standard output to the dump if that is where it goes. -/
def statusStream (job : Job) : Stream :=
  if job.stdout then .standardError else .standardOutput

/-- A log entry, which only a verbose job makes. -/
def log (job : Job) (text : String) : List Entry :=
  if job.settings.verbose then [.log text] else []

/-- What is said before the source is loaded. -/
def opening (job : Job) : List Entry :=
  job.log ("Configuration: " ++ job.settings.text) ++
    [.status "CENG Lexical Analyzer", .status "=====================",
      .status ("Reading source from " ++
        (if job.demo then "built-in demo" else "file " ++ job.settings.source.text) ++ "...")]

/-- What is said of the loaded source before it is scanned. -/
def loaded (job : Job) (source : Bytes) : List Entry :=
  (if job.demo then []
    else job.log ("Loaded " ++ source.length.repr ++ " bytes from " ++ job.settings.source.text)) ++
    [.status "Lexing source file..."]

/-- What is logged of a scan that succeeded. -/
def scanned (job : Job) (run : Run) : List Entry :=
  job.log ("Scanned " ++ run.tokens.length.repr ++ " tokens over " ++ run.line.repr ++ " lines")

/-- What is logged of a dump that was written. -/
def wrote (job : Job) (count : Nat) : List Entry :=
  job.log ("Wrote " ++ count.repr ++ " tokens to " ++ job.settings.output.text)

/-- The last status line. -/
def done (count : Nat) (target : String) : Entry :=
  .status ("Done! " ++ count.repr ++ " lexemes written to " ++ target)

def fail (job : Job) (entries : List Entry) (f : Failure) : Outcome :=
  ⟨f.exitCode, job.statusStream, entries ++ f.report job.settings.verbose⟩

def succeed (job : Job) (entries : List Entry) : Outcome :=
  ⟨.success, job.statusStream, entries⟩

/-- The end of a job whose dump has been printed. -/
def printed (job : Job) (entries : List Entry) (tokens : List Token) : Outcome :=
  job.succeed (entries ++ [.dump (DumpStream.block tokens), done tokens.length "standard output"])

/-- The end of a job whose dump has been written, if it could be. -/
def written (job : Job) (entries : List Entry) : Except WriteError Nat → Outcome
  | .error e => job.fail entries (.ofWriteError e)
  | .ok count =>
    job.succeed (entries ++ job.wrote count ++ [done count job.settings.output.text])

variable {m : Type → Type} [Monad m]

/-- The source of a job. The demo program asks nothing of the world. -/
def fetch (files : FileSystem m) (job : Job) : m (Except LoadError Bytes) :=
  if job.demo then pure (.ok demoSource) else files.load job.settings.source

/-- Prints or writes the dump of tokens that have been scanned. -/
def deliver (files : FileSystem m) (job : Job) (entries : List Entry) (tokens : List Token) :
    m Outcome :=
  if job.stdout then pure (job.printed entries tokens)
  else do
    let result ← files.writeDump job.settings.output tokens
    return job.written (entries ++ [.status "Writing lexemes to file..."]) result

/-- Does a job from start to end. -/
def execute (files : FileSystem m) (job : Job) : m Outcome := do
  match ← job.fetch files with
  | .error e => return job.fail job.opening (.unreadable e)
  | .ok source =>
    let run := Run.ofSource (Latin1.decode source)
    let entries := job.opening ++ job.loaded source
    match run.result with
    | .error e => return job.fail entries (.malformed e.diagnostic)
    | .ok tokens => job.deliver files (entries ++ job.scanned run) tokens

end Job
end Ceng.Command
