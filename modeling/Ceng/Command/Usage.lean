import Ceng.Command.Report

/-!
# Usage texts

The texts that tell how the command is used, and the complaints about command
lines that do not fit them.
-/
namespace Ceng.Command

def version : String := "1.0.0"

def versionLine : String := "cenglex, version " ++ version ++ "\n"

def usageLine : String := "Usage: cenglex [OPTIONS] [SOURCE]"

def helpText : String := usageLine ++ "

  Tokenize a CENG source file.

  SOURCE is the file to scan (default: code_file.ceng, or $CENG_SOURCE_FILE).

  Examples:
      cenglex                        # code_file.ceng -> code.lex
      cenglex prog.ceng -o prog.lex  # Explicit files
      cenglex prog.ceng --stdout     # Print tokens
      cenglex --demo --stdout        # Built-in example

Options:
  -o, --output FILE  Output token file (default: code.lex, or
                     $CENG_OUTPUT_FILE)
  --stdout           Print tokens to standard output instead of writing a file
  --demo             Scan the built-in demo program instead of a file
  -v, --verbose      Verbose output
  --version          Show the version and exit.
  --help             Show this message and exit.
"

/-- The two places of a command line where a file is named. -/
inductive Parameter
  | source
  | output
deriving DecidableEq, Repr

def Parameter.text : Parameter → String
  | .source => "'[SOURCE]'"
  | .output => "'-o' / '--output'"

/-- Why a command line cannot be used. -/
inductive UsageError
  | noSuchOption (name : String)
  | missingValue (name : String)
  | unwantedValue (name : String)
  | directory (parameter : Parameter) (value : String)
  | extraArguments (arguments : List String)
deriving DecidableEq, Repr

namespace UsageError

def message : UsageError → String
  | noSuchOption name => "No such option: " ++ name
  | missingValue name => "Option '" ++ name ++ "' requires an argument."
  | unwantedValue name => "Option '" ++ name ++ "' does not take a value."
  | directory parameter value =>
    "Invalid value for " ++ parameter.text ++ ": File " ++ Text.quote value ++ " is a directory."
  | extraArguments arguments =>
    "Got unexpected extra argument" ++ (if arguments.length = 1 then "" else "s") ++
      " (" ++ " ".intercalate arguments ++ ")"

/-- Whether the complaint comes with a reminder of how the command is used. A
complaint about the value of an option stands alone. -/
def showsUsage : UsageError → Bool
  | missingValue _ | unwantedValue _ => false
  | noSuchOption _ | directory _ _ | extraArguments _ => true

def output (e : UsageError) : Output where
  exitCode := .badArguments
  stdout := []
  stderr :=
    (if e.showsUsage then
      plainLine usageLine ++ plainLine "Try 'cenglex --help' for help." ++ ['\n']
    else []) ++ plainLine ("Error: " ++ e.message)

end UsageError

end Ceng.Command
