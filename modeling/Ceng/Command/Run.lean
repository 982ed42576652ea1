import Ceng.Command.Job
import Ceng.Command.Line

/-!
# Running the command

A command line is read, checked against the files that are there, and put on top
of the settings of the environment. Requests for the version or the help are
answered as soon as the line has been read.
-/
namespace Ceng.Command

namespace Line

/-- The file name given first, if any. -/
def source (line : Line) : Option String := line.arguments.head?

/-- The settings of the environment with those of the command line on top. -/
def settings (line : Line) (env : Environment) : Settings :=
  let settings := Settings.ofEnvironment env
  { source := (line.source.map Path.ofText).getD settings.source
    output := (line.output.map Path.ofText).getD settings.output
    verbose := settings.verbose || line.verbose }

def job (line : Line) (env : Environment) : Job := ⟨line.settings env, line.demo, line.stdout⟩

variable {m : Type → Type} [Monad m]

/-- Complains if the value given for a file names a directory. -/
def checkFile (files : FileSystem m) (parameter : Parameter) :
    Option String → m (Option UsageError)
  | none => pure none
  | some value => do
    return if ← files.isDirectory value then some (.directory parameter value) else none

/-- The first complaint about a line that could be read: its output file, then
its source file, then arguments that are left over. -/
def check (files : FileSystem m) (line : Line) : m (Option UsageError) := do
  match ← checkFile files .output line.output with
  | some e => return some e
  | none =>
    match ← checkFile files .source line.source with
    | some e => return some e
    | none =>
      match line.arguments.tail with
      | [] => return none
      | extra => return some (.extraArguments extra)

end Line

def Request.output (request : Request) : Output where
  exitCode := .success
  stdout :=
    match request with
    | .version => versionLine.toList
    | .help => helpText.toList
  stderr := []

variable {m : Type → Type} [Monad m]

/-- Runs the command with these arguments. -/
def run (files : FileSystem m) (env : Environment) (arguments : List String) : m Output := do
  match Line.ofArguments arguments with
  | .error e => return e.output
  | .ok line =>
    match line.request with
    | some request => return request.output
    | none =>
      match ← line.check files with
      | some e => return e.output
      | none => return (← (line.job env).execute files).output

/-- Runs the command on a file tree. -/
def runOnTree (tree : Tree) (env : Environment) (arguments : List String) : Output × Tree :=
  run treeFiles env arguments tree

end Ceng.Command
