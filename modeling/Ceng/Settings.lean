import Ceng.Files.Path
import Ceng.Text.Blank
import Ceng.Text.Quoted

/-!
# Settings

Which file a run reads, which file it writes, and whether it logs. Settings
start from the defaults; the environment overrides them, with an empty value
counting as none. The command line comes on top in `Ceng.Command`.
-/
namespace Ceng

structure Settings where
  source : Path
  output : Path
  verbose : Bool
deriving DecidableEq, Repr

/-- The values that the environment has for the settings. -/
structure Environment where
  source : Option String
  output : Option String
  verbose : Option String
deriving DecidableEq, Repr

namespace Environment

/-- Reads the variables that matter. -/
def read {m : Type → Type} [Monad m] (lookup : String → m (Option String)) : m Environment := do
  return ⟨← lookup "CENG_SOURCE_FILE", ← lookup "CENG_OUTPUT_FILE", ← lookup "CENG_VERBOSE"⟩

end Environment

namespace Settings

def defaultSource : String := "code_file.ceng"

def defaultOutput : String := "code.lex"

/-- The settings of an empty environment. -/
def default : Settings := ⟨.ofText defaultSource, .ofText defaultOutput, false⟩

/-- The words that switch logging on. -/
def trueWords : List (List Char) := ["1", "true", "yes", "on"].map String.toList

/-- Whether a value switches logging on. Blanks around it and the case of ASCII
letters do not matter; no other letter has one of these words in lower case. -/
def isTrue (value : String) : Bool :=
  trueWords.contains ((Text.trim value.toList).map Char.toLower)

/-- The path named by a value that is not empty, or by the default. -/
def pathOr (value : Option String) (fallback : String) : Path :=
  .ofText ((value.filter (· != "")).getD fallback)

def ofEnvironment (env : Environment) : Settings where
  source := pathOr env.source defaultSource
  output := pathOr env.output defaultOutput
  verbose := env.verbose.any isTrue

/-- The settings as they are shown in the log. -/
def text (s : Settings) : String :=
  "LexerConfig(source_file=PosixPath(" ++ Text.quote s.source.text ++
    "), output_file=PosixPath(" ++ Text.quote s.output.text ++
    "), verbose=" ++ (if s.verbose then "True" else "False") ++ ")"

end Settings
end Ceng
