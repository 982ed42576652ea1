import Ceng.Command.Item
import Ceng.Command.Run

/-!
# Reading a command line

To read a command line is to find the items that it spells: a line can be read if and only
if it spells some, and then all that is kept of it is kept of them.
-/
namespace Ceng.Command

/-- The line with one more item on it. -/
def Line.add (line : Line) : Item → Line
  | .switch s => line.turnOn s
  | .output value => { line with output := some value }
  | .file name => { line with arguments := line.arguments ++ [name] }

/-! ## Joined letters -/

theorem Letters.readLetters_eq {letters : List Char} {items : List Item} {awaits : Bool}
    (h : Letters letters items awaits) (line : Line) :
    readLetters line letters =
      .ok ⟨items.foldl Line.add line, if awaits then some "-o" else none⟩ := by
  induction h generalizing line with
  | done => rfl
  | verbose _ ih => exact ih (line.turnOn .verbose)
  | @output value hvalue =>
    cases value with
    | nil => exact absurd rfl hvalue
    | cons => rfl
  | awaits => rfl

theorem exists_letters_of_readLetters {line : Line} {letters : List Char} {reading : Reading}
    (h : readLetters line letters = .ok reading) :
    ∃ items awaits, Letters letters items awaits := by
  fun_induction readLetters line letters with
  | case1 => exact ⟨_, _, .done⟩
  | case2 _ rest ih =>
    obtain ⟨items, awaits, hl⟩ := ih h
    exact ⟨_, _, .verbose hl⟩
  | case3 => exact ⟨_, _, .awaits⟩
  | case4 _ value hvalue => exact ⟨_, _, .output hvalue⟩
  | case5 => cases h

/-! ## One argument -/

theorem Switch.prefix_of_ofName? {name : String} {s : Switch} (h : Switch.ofName? name = some s) :
    ['-', '-'] <+: name.toList := by
  unfold Switch.ofName? at h
  split at h
  · decide
  · decide
  · decide
  · decide
  · decide
  · cases h

theorem toList_of_splitValue_eq_none {argument : List Char} {name : String}
    (h : splitValue argument = (name, none)) : name.toList = argument := by
  obtain ⟨rfl, hvalue⟩ := Prod.mk.inj h
  split at hvalue
  case h_2 => cases hvalue
  case h_1 hdrop =>
    have hjoin := List.takeWhile_append_dropWhile (p := (· != '=')) (l := argument)
    rw [hdrop, List.append_nil] at hjoin
    rw [String.toList_ofList, hjoin]

theorem toList_of_splitValue_eq_some {argument : List Char} {name value : String}
    (h : splitValue argument = (name, some value)) :
    name.toList ++ '=' :: value.toList = argument := by
  obtain ⟨rfl, hvalue⟩ := Prod.mk.inj h
  split at hvalue
  case h_1 => cases hvalue
  case h_2 c rest hdrop =>
    obtain rfl := Option.some.inj hvalue
    have hne : argument.dropWhile (· != '=') ≠ [] := by
      rw [hdrop]
      exact List.cons_ne_nil c rest
    have hhead : c = '=' := by
      simpa [hdrop] using List.head_dropWhile_not (· != '=') hne
    have hjoin := List.takeWhile_append_dropWhile (p := (· != '=')) (l := argument)
    rw [hdrop, hhead] at hjoin
    rw [String.toList_ofList, String.toList_ofList, hjoin]

/-- An argument with one hyphen in front is read letter by letter. -/
theorem readOption_of_one_hyphen {letters : List Char} (h : ¬ ['-', '-'] <+: '-' :: letters)
    (line : Line) : readOption line ('-' :: letters) = readLetters line letters := by
  -- The names of the long options begin with two hyphens, so no such name is cut off here.
  have hname : ¬ ['-', '-'] <+: (splitValue ('-' :: letters)).1.toList := fun hp =>
    h (hp.trans (by
      rw [splitValue, String.toList_ofList]
      exact List.takeWhile_prefix _))
  have houtput : (splitValue ('-' :: letters)).1 ≠ "--output" := fun he => by
    rw [he] at hname
    exact hname (by decide)
  have hswitch : Switch.ofName? (splitValue ('-' :: letters)).1 = none := by
    cases hs : Switch.ofName? (splitValue ('-' :: letters)).1 with
    | none => rfl
    | some s => exact absurd (Switch.prefix_of_ofName? hs) hname
  have hdashes : ['-', '-'].isPrefixOf ('-' :: letters) = false := by
    rw [Bool.eq_false_iff, Ne, List.isPrefixOf_iff_prefix]
    exact h
  unfold readOption
  simp only [houtput, if_false, hswitch, hdashes]
  rfl

/-- The options that an argument spells are read from it, whatever was read before. -/
theorem Options.exists_readOption_eq {argument : List Char} {given : List Item} {awaits : Bool}
    (h : Options argument given awaits) (line : Line) :
    ∃ name, readOption line argument =
      .ok ⟨given.foldl Line.add line, if awaits then some name else none⟩ := by
  cases h with
  | @switch name s hs =>
    refine ⟨"", ?_⟩
    unfold Switch.ofName? at hs
    split at hs
    case h_6 => cases hs
    all_goals
      obtain rfl := Option.some.inj hs
      rfl
  | output value =>
    refine ⟨"", ?_⟩
    have hvalue : String.ofList value.toList = value := String.ofList_toList
    exact congrArg (fun v => Except.ok (Reading.mk { line with output := some v } none)) hvalue
  | awaits => exact ⟨"--output", rfl⟩
  | @letters letters _ _ hne hl =>
    refine ⟨"-o", ?_⟩
    rw [readOption_of_one_hyphen ?_, hl.readLetters_eq]
    cases hl with
    | done => exact absurd rfl hne
    | verbose | output | awaits => simp

theorem exists_options_of_readOption {argument : List Char} {line : Line} {reading : Reading}
    (hoption : isOption argument = true) (h : readOption line argument = .ok reading) :
    ∃ given awaits, Options argument given awaits := by
  by_cases hdashes : ['-', '-'] <+: argument
  · have hprefix : ['-', '-'].isPrefixOf argument = true := List.isPrefixOf_iff_prefix.2 hdashes
    unfold readOption at h
    cases hsplit : splitValue argument with
    | mk name value =>
      simp only [hsplit, hprefix, if_true] at h
      by_cases hname : name = "--output"
      · subst hname
        cases value with
        | none => exact ⟨[], true, toList_of_splitValue_eq_none hsplit ▸ .awaits⟩
        | some value =>
          exact ⟨[.output value], false, toList_of_splitValue_eq_some hsplit ▸ .output value⟩
      · rw [if_neg hname] at h
        cases hs : Switch.ofName? name with
        | none => simp [hs] at h
        | some s =>
          cases value with
          | none => exact ⟨[.switch s], false, toList_of_splitValue_eq_none hsplit ▸ .switch hs⟩
          | some value => simp [hs] at h
  · simp only [isOption, Bool.and_eq_true, List.isPrefixOf_iff_prefix, bne_iff_ne] at hoption
    obtain ⟨⟨letters, rfl⟩, hne⟩ := hoption
    rw [List.singleton_append] at h hdashes hne
    rw [readOption_of_one_hyphen hdashes] at h
    obtain ⟨items, awaits, hl⟩ := exists_letters_of_readLetters h
    have hletters : letters ≠ [] := fun hnil => hne (congrArg _ hnil)
    exact ⟨_, _, .letters hletters hl⟩

theorem Options.isOption_eq {argument : List Char} {given : List Item} {awaits : Bool}
    (h : Options argument given awaits) : isOption argument = true ∧ argument ≠ "--".toList := by
  cases h with
  | @switch name s hs =>
    unfold Switch.ofName? at hs
    split at hs
    case h_6 => cases hs
    all_goals decide
  | output value => exact ⟨rfl, nofun⟩
  | awaits => decide
  | letters hne hl =>
    cases hl with
    | done => exact absurd rfl hne
    | verbose | output | awaits => exact ⟨rfl, nofun⟩

/-! ## Whole lines -/

theorem Line.foldl_add_files (line : Line) (names : List String) :
    (names.map Item.file).foldl Line.add line =
      { line with arguments := line.arguments ++ names } := by
  induction names generalizing line with
  | nil => simp
  | cons name names ih =>
    rw [List.map_cons, List.foldl_cons, ih]
    simp [Line.add]

/-- The letter for an output stands alone if its value is an argument of its own. -/
theorem Options.output_letter : Options "-o".toList [] true :=
  .letters (List.cons_ne_nil _ _) .awaits

/-- Arguments that spell items are read as these items. -/
theorem Spells.readFrom_eq {arguments : List String} {items : List Item}
    (h : Spells arguments items) (line : Line) :
    line.readFrom arguments = .ok (items.foldl Line.add line) := by
  induction h generalizing line with
  | done => rfl
  | files names =>
    rw [Line.foldl_add_files]
    rfl
  | @file name rest items hname _ ih =>
    unfold Line.readFrom
    have hne : name ≠ "--" := fun he => by
      rw [he] at hname
      exact absurd hname (by decide)
    rw [if_neg hne, if_neg (by rw [hname]; decide)]
    exact ih _
  | @options argument rest given items hoption _ ih =>
    obtain ⟨hopt, hne⟩ := hoption.isOption_eq
    obtain ⟨name, hread⟩ := hoption.exists_readOption_eq line
    unfold Line.readFrom
    rw [if_neg (fun he => hne (by rw [he])), if_pos hopt, hread]
    exact (ih _).trans (by rw [List.foldl_append])
  | @awaits argument value rest given items hoption _ ih =>
    obtain ⟨hopt, hne⟩ := hoption.isOption_eq
    obtain ⟨name, hread⟩ := hoption.exists_readOption_eq line
    unfold Line.readFrom
    rw [if_neg (fun he => hne (by rw [he])), if_pos hopt, hread]
    exact (ih _).trans (by rw [List.foldl_append]; rfl)

/-- All arguments that can be read spell items. -/
theorem exists_spells_of_readFrom {line line' : Line} {arguments : List String}
    (h : line.readFrom arguments = .ok line') : ∃ items, Spells arguments items := by
  fun_induction Line.readFrom line arguments with
  | case1 => exact ⟨_, .done⟩
  | case2 line rest => exact ⟨_, .files rest⟩
  | case3 => cases h
  | case4 line argument rest hne hopt next hread ih =>
    obtain ⟨items, hrest⟩ := ih h
    obtain ⟨given, awaits, hoption⟩ := exists_options_of_readOption hopt hread
    obtain ⟨name, hread'⟩ := hoption.exists_readOption_eq line
    cases awaits with
    | false => exact ⟨_, .options hoption hrest⟩
    | true => cases hread.symm.trans hread'
  | case5 => cases h
  | case6 line argument hne hopt next name hread value rest ih =>
    obtain ⟨items, hrest⟩ := ih h
    obtain ⟨given, awaits, hoption⟩ := exists_options_of_readOption hopt hread
    obtain ⟨name', hread'⟩ := hoption.exists_readOption_eq line
    cases awaits with
    | false => cases hread.symm.trans hread'
    | true => exact ⟨_, .awaits hoption hrest⟩
  | case7 line name rest hne hopt ih =>
    obtain ⟨items, hrest⟩ := ih h
    exact ⟨_, .file (Bool.eq_false_iff.2 hopt) hrest⟩

/-- A line can be read if it spells items, and is then the line of these. -/
theorem Line.ofArguments_eq_ok_iff {arguments : List String} {line : Line} :
    Line.ofArguments arguments = .ok line ↔
      ∃ items, Spells arguments items ∧ items.foldl Line.add Line.empty = line := by
  constructor
  · intro h
    obtain ⟨items, hs⟩ := exists_spells_of_readFrom h
    exact ⟨items, hs, Except.ok.inj ((hs.readFrom_eq _).symm.trans h)⟩
  · rintro ⟨items, hs, rfl⟩
    exact hs.readFrom_eq _

/-! ## What is kept of the items -/

theorem Line.foldl_add (items : List Item) (line : Line) :
    items.foldl Line.add line =
      { output := (items.filterMap Item.output?).getLast?.or line.output
        stdout := line.stdout || items.contains (.switch .stdout)
        demo := line.demo || items.contains (.switch .demo)
        verbose := line.verbose || items.contains (.switch .verbose)
        request := line.request.or (items.filterMap Item.request?).head?
        arguments := line.arguments ++ items.filterMap Item.file? } := by
  induction items generalizing line with
  | nil => simp
  | cons item items ih =>
    rw [List.foldl_cons, ih]
    simp only [List.filterMap_cons]
    cases item with
    | switch s =>
      cases s <;>
        simp [Line.add, Line.turnOn, Line.ask, Item.output?, Item.file?, Item.request?]
    | output value => simp [Line.add, Item.output?, Item.file?, Item.request?, List.getLast?_cons]
    | file name => simp [Line.add, Item.output?, Item.file?, Item.request?]

theorem effectivePath_eq (given exported : Option String) (fallback : String) :
    (given.map Path.ofText).getD (Settings.pathOr exported fallback) =
      effectivePath given exported fallback := by
  cases given <;> rfl

/-- The job of a line is the job of the items that its arguments spell. -/
theorem Spells.job_eq {arguments : List String} {items : List Item} {line : Line}
    (h : Spells arguments items) (hread : Line.ofArguments arguments = .ok line)
    (env : Environment) : line.job env = Job.ofItems items env := by
  have hlog : (fun value => decide (SwitchesLogOn value)) = Settings.isTrue :=
    funext fun value =>
      Bool.eq_iff_iff.2 (decide_eq_true_iff.trans (isTrue_iff_switchesLogOn value).symm)
  obtain rfl : items.foldl Line.add Line.empty = line :=
    Except.ok.inj ((Line.ofArguments_eq_ok_iff.2 ⟨items, h, rfl⟩).symm.trans hread)
  rw [Line.foldl_add]
  simp only [Line.job, Line.settings, Line.source, Line.empty, Settings.ofEnvironment,
    Settings.defaultSource, Settings.defaultOutput, Job.ofItems, hlog, effectivePath_eq,
    Option.or_none, List.nil_append, Bool.false_or]
  rw [Bool.or_comm]

end Ceng.Command
