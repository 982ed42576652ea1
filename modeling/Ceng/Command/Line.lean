import Ceng.Command.Usage
import Ceng.Settings

/-!
# Reading the command line

Options and the source file may stand in any order. A lone hyphen is an ordinary
file name, two hyphens end the options, and single-letter options may be joined.
The whole line is read before anything is done about it.
-/
namespace Ceng.Command

/-- Options that take no value. -/
inductive Switch
  | stdout
  | demo
  | verbose
  | version
  | help
deriving DecidableEq, Repr

/-- What is printed instead of a run. -/
inductive Request
  | version
  | help
deriving DecidableEq, Repr

/-- What a command line asks for. -/
structure Line where
  output : Option String
  stdout : Bool
  demo : Bool
  verbose : Bool
  request : Option Request
  arguments : List String
deriving DecidableEq, Repr

namespace Line

def empty : Line := ⟨none, false, false, false, none, []⟩

/-- Only the first request on a line counts. -/
def ask (line : Line) (request : Request) : Line :=
  { line with request := line.request <|> some request }

def turnOn (line : Line) : Switch → Line
  | .stdout => { line with stdout := true }
  | .demo => { line with demo := true }
  | .verbose => { line with verbose := true }
  | .version => line.ask .version
  | .help => line.ask .help

end Line

def Switch.ofName? : String → Option Switch
  | "--stdout" => some .stdout
  | "--demo" => some .demo
  | "--verbose" => some .verbose
  | "--version" => some .version
  | "--help" => some .help
  | _ => none

/-- What is known after one argument that holds options: the line so far, and
the spelling of an option that still needs its value. -/
structure Reading where
  line : Line
  awaiting : Option String
deriving DecidableEq, Repr

/-- Reads joined single-letter options. What follows the letter of the output
option is its value. -/
def readLetters (line : Line) : List Char → Except UsageError Reading
  | [] => .ok ⟨line, none⟩
  | 'v' :: rest => readLetters (line.turnOn .verbose) rest
  | ['o'] => .ok ⟨line, some "-o"⟩
  | 'o' :: value => .ok ⟨{ line with output := some (String.ofList value) }, none⟩
  | c :: _ => .error (.noSuchOption (String.ofList ['-', c]))

/-- Splits an argument at its first equals sign. -/
def splitValue (argument : List Char) : String × Option String :=
  (String.ofList (argument.takeWhile (· != '=')),
    match argument.dropWhile (· != '=') with
    | [] => none
    | _ :: value => some (String.ofList value))

/-- Reads an argument that begins with a hyphen. -/
def readOption (line : Line) (argument : List Char) : Except UsageError Reading :=
  let (name, value) := splitValue argument
  if name = "--output" then
    match value with
    | none => .ok ⟨line, some name⟩
    | some value => .ok ⟨{ line with output := some value }, none⟩
  else
    match Switch.ofName? name, value with
    | some switch, none => .ok ⟨line.turnOn switch, none⟩
    | some _, some _ => .error (.unwantedValue name)
    | none, _ =>
      if ['-', '-'].isPrefixOf argument then .error (.noSuchOption name)
      else readLetters line (argument.drop 1)

/-- Whether an argument holds options and is not a file name. -/
def isOption (argument : List Char) : Bool := ['-'].isPrefixOf argument && argument != ['-']

/-- Reads the arguments one after the other. A value is taken as it is, even if
it looks like an option. -/
def Line.readFrom (line : Line) : List String → Except UsageError Line
  | [] => .ok line
  | argument :: rest =>
    if argument = "--" then .ok { line with arguments := line.arguments ++ rest }
    else if isOption argument.toList then
      match readOption line argument.toList with
      | .error e => .error e
      | .ok ⟨line, none⟩ => line.readFrom rest
      | .ok ⟨line, some name⟩ =>
        match rest with
        | [] => .error (.missingValue name)
        | value :: rest => Line.readFrom { line with output := some value } rest
    else Line.readFrom { line with arguments := line.arguments ++ [argument] } rest

def Line.ofArguments (arguments : List String) : Except UsageError Line :=
  Line.empty.readFrom arguments

end Ceng.Command
