import Ceng.Command.Job
import Ceng.Command.Line

/-!
# Items of a command line

A command line names files, sets switches and gives values for the output file, in any
order. This is how arguments spell these items, and which settings take effect for given
items and a given environment, said without reading the arguments one after the other.
-/
namespace Ceng.Command

inductive Item
  | switch (s : Switch)
  | output (value : String)
  | file (name : String)
deriving DecidableEq, Repr

/-! ## Spelling -/

/-- Joined single letters with the items they stand for, and whether a value has to follow. -/
inductive Letters : List Char → List Item → Bool → Prop
  | done : Letters [] [] false
  | verbose {letters : List Char} {items : List Item} {awaits : Bool} :
      Letters letters items awaits → Letters ('v' :: letters) (.switch .verbose :: items) awaits
  | output {value : List Char} : value ≠ [] →
      Letters ('o' :: value) [.output (String.ofList value)] false
  | awaits : Letters ['o'] [] true

/-- One argument that holds options, likewise. -/
inductive Options : List Char → List Item → Bool → Prop
  | switch {name : String} {s : Switch} : Switch.ofName? name = some s →
      Options name.toList [.switch s] false
  | output (value : String) : Options ("--output=".toList ++ value.toList) [.output value] false
  | awaits : Options "--output".toList [] true
  | letters {letters : List Char} {items : List Item} {awaits : Bool} : letters ≠ [] →
      Letters letters items awaits → Options ('-' :: letters) items awaits

/-- How arguments spell items. All that follows two hyphens are files, and a value that is
awaited may be anything. -/
inductive Spells : List String → List Item → Prop
  | done : Spells [] []
  | files (names : List String) : Spells ("--" :: names) (names.map .file)
  | file {name : String} {rest : List String} {items : List Item} :
      isOption name.toList = false → Spells rest items → Spells (name :: rest) (.file name :: items)
  | options {argument : String} {rest : List String} {given items : List Item} :
      Options argument.toList given false → Spells rest items →
      Spells (argument :: rest) (given ++ items)
  | awaits {argument value : String} {rest : List String} {given items : List Item} :
      Options argument.toList given true → Spells rest items →
      Spells (argument :: value :: rest) (given ++ .output value :: items)

/-! ## Effect -/

namespace Item

def output? : Item → Option String
  | output value => some value
  | _ => none

def file? : Item → Option String
  | file name => some name
  | _ => none

def request? : Item → Option Request
  | switch .version => some .version
  | switch .help => some .help
  | _ => none

end Item

/-- A value that switches logging on: but for blanks around it and the case of its letters, it
is one of four words. -/
def SwitchesLogOn (value : String) : Prop :=
  ∃ word, Text.Padded value.toList word ∧
    word.map Char.toLower ∈ ["1", "true", "yes", "on"].map String.toList

/-- None of the four words has a blank, and a blank would be its own lower case. -/
theorem isBlank_eq_false_of_lower {word : List Char}
    (h : word.map Char.toLower ∈ Settings.trueWords) : ∀ c ∈ word, Text.isBlank c = false := by
  have hwords : Settings.trueWords.all (·.all (!Text.isBlank ·)) = true := by decide
  refine fun c hc => Bool.eq_false_iff.2 fun hblank => ?_
  have hmem : c ∈ word.map Char.toLower := by
    rw [← Text.toLower_of_isBlank hblank]
    exact List.mem_map_of_mem hc
  have hother := List.all_eq_true.1 (List.all_eq_true.1 hwords _ h) c hmem
  rw [hblank] at hother
  cases hother

theorem isTrue_iff_switchesLogOn (value : String) :
    Settings.isTrue value = true ↔ SwitchesLogOn value := by
  unfold Settings.isTrue
  rw [List.contains_iff_mem]
  constructor
  · exact fun h => ⟨_, Text.padded_trim value.toList, h⟩
  · rintro ⟨word, hpad, hword⟩
    rw [hpad.trim_eq (isBlank_eq_false_of_lower hword)]
    exact hword

instance (value : String) : Decidable (SwitchesLogOn value) :=
  decidable_of_iff _ (isTrue_iff_switchesLogOn value)

example : SwitchesLogOn "\tYes " ∧ ¬ SwitchesLogOn "o n" := by decide

/-- The path that takes effect: the one given, else that of a variable which is not empty,
else the one that is always there. -/
def effectivePath (given exported : Option String) (fallback : String) : Path :=
  .ofText (given.getD ((exported.filter (· != "")).getD fallback))

/-- The job that items and an environment ask for. The first file is the source, and the last
output is the output. -/
def Job.ofItems (items : List Item) (env : Environment) : Job where
  settings :=
    { source := effectivePath (items.filterMap Item.file?).head? env.source "code_file.ceng"
      output := effectivePath (items.filterMap Item.output?).getLast? env.output "code.lex"
      verbose := items.contains (.switch .verbose) || env.verbose.any (SwitchesLogOn ·) }
  demo := items.contains (.switch .demo)
  stdout := items.contains (.switch .stdout)

end Ceng.Command
