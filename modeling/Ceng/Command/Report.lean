import Ceng.Fault
import Ceng.Files.DumpFile
import Ceng.Files.Source
import Ceng.Text.ControlSequence

/-!
# What a run reports

A run leaves a list of entries in the order in which they were made, and an exit
code. The entries become the text on standard output and standard error only
at the end. Status lines and failures lose their control sequences; log lines
and dumps keep them.

Streams take every text. That a character may have no encoding on one, or that
a stream may be closed, is left out.
-/
namespace Ceng.Command

inductive ExitCode
  | success
  | malformedSource
  | badArguments
  | internalError
deriving DecidableEq, Repr

def ExitCode.number : ExitCode → Nat
  | success => 0
  | malformedSource => 1
  | badArguments => 2
  | internalError => 3

/-- Why a run ends early. -/
inductive Failure
  | malformed (d : Diagnostic)
  | unreadable (e : LoadError)
  | missing (message : String)
  | denied (message : String)
  | badParameter (message : String)
  | unexpected (message : String)
deriving DecidableEq, Repr

namespace Failure

/-- A file that cannot be opened for writing is the user's mistake if it or the
way to it is missing or closed to the user; anything else is unexpected. -/
def ofWriteError (e : WriteError) : Failure :=
  match e with
  | .cannotOpen ⟨.notFound, _⟩ => missing e.message
  | .cannotOpen ⟨.permissionDenied, _⟩ => denied e.message
  | _ => unexpected e.message

def message : Failure → String
  | malformed d => d.message
  | unreadable e => e.message
  | missing message | denied message | badParameter message | unexpected message => message

def exitCode : Failure → ExitCode
  | malformed _ => .malformedSource
  | unreadable _ | missing _ | denied _ | badParameter _ => .badArguments
  | unexpected _ => .internalError

/-- The line that is shown. Messages about source text are shown as they are,
since other tools match on them. -/
def line (f : Failure) : String :=
  match f.exitCode with
  | .badArguments => "Error: " ++ f.message
  | .internalError => "Internal error: " ++ f.message
  | _ => f.message

end Failure

/-- One thing that a run says. -/
inductive Entry
  | status (text : String)
  | log (text : String)
  | dump (text : List Char)
  | failure (f : Failure)
  | trace
deriving DecidableEq, Repr

inductive Stream
  | standardOutput
  | standardError
deriving DecidableEq, Repr

/-- A line without control sequences. -/
def plainLine (text : String) : List Char := Text.stripSequences text.toList ++ ['\n']

namespace Entry

def text : Entry → List Char
  | status text => plainLine text
  | log text => "DEBUG: ".toList ++ text.toList ++ ['\n']
  | dump text => text
  | failure f => plainLine f.line
  | trace => "<traceback>\n".toList

/-- Where an entry is shown, given where status lines are shown. -/
def stream (statusStream : Stream) : Entry → Stream
  | status _ => statusStream
  | dump _ => .standardOutput
  | log _ | failure _ | trace => .standardError

end Entry

/-- The entries for a failure. A verbose run marks where the trace of an
unexpected one belongs. -/
def Failure.report (verbose : Bool) (f : Failure) : List Entry :=
  if verbose && f.exitCode == .internalError then [.failure f, .trace] else [.failure f]

/-- All that can be seen of a finished command apart from files. -/
structure Output where
  exitCode : ExitCode
  stdout : List Char
  stderr : List Char
deriving DecidableEq, Repr

/-- What a stream shows of these entries. -/
def shown (statusStream stream : Stream) (entries : List Entry) : List Char :=
  (entries.filter (·.stream statusStream == stream)).flatMap Entry.text

/-- A run that has ended, with the stream that its status lines go to. -/
structure Outcome where
  exitCode : ExitCode
  statusStream : Stream
  entries : List Entry
deriving DecidableEq, Repr

def Outcome.output (o : Outcome) : Output where
  exitCode := o.exitCode
  stdout := shown o.statusStream .standardOutput o.entries
  stderr := shown o.statusStream .standardError o.entries

end Ceng.Command
