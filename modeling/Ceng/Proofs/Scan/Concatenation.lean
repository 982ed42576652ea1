import Ceng.Proofs.Scan.Reading

/-!
# Scanning one text after another

Two sources scan together as they scan apart if and only if the last piece of
the first does not take in the first character of the second. The condition is
exact: it concerns one piece and one character, whatever else the texts hold.
Nothing is said about a first source that does not scan.
-/
namespace Ceng

/-- What a step lets see: the cursor before it, the characters consumed, the line
counter after it, and the token. -/
def Step.observed (step : Step) : Nat × Nat × Nat × Option Token :=
  (step.pos, step.piece.length, step.line, step.piece.token?)

/-- The last step, if there is one, would not have gone on with this character. -/
def Run.ClosedTo (run : Run) (c : Char) : Prop :=
  ∀ step ∈ run.steps.getLast?, step.piece.extendsBy c = false

/-- The first run, and after it the second from where the first has stopped. The
second counts its lines from one. -/
def Run.andThen (first second : Run) : Run :=
  ⟨first.steps ++ second.steps.map (Step.shift first.pos (first.line - 1)),
    first.pos + second.pos, first.line - 1 + second.line, second.fault⟩

theorem Reading.closedTo_iff {source rest : List Char} {pieces : List Piece} {stop : Option Fault}
    (h : Reading source pieces rest stop) (c : Char) :
    (Run.ofSource source).ClosedTo c ↔ ∀ p ∈ pieces.getLast?, p.extendsBy c = false := by
  have hlast : (stepsFrom 0 1 pieces).getLast?.map Step.piece = pieces.getLast? := by
    rw [← List.getLast?_map, map_piece_stepsFrom]
  rw [h.ofSource_eq, Run.ClosedTo, ← hlast]
  cases (stepsFrom 0 1 pieces).getLast? <;> simp

/-! ## The boundary -/

theorem Reads.getLast?_endsBefore {source rest : List Char} {pieces : List Piece}
    (h : Reads source pieces rest) : ∀ p ∈ pieces.getLast?, p.EndsBefore rest := by
  induction h with
  | stop rest => simp
  | @piece p pieces source after rest hw he hs hr ih =>
    intro q hq
    cases pieces with
    | nil =>
      have hafter : after = rest := reads_nil_iff.1 hr
      have hqp : q = p := by simpa using hq.symm
      rw [hqp, ← hafter]
      exact he
    | cons r pieces => exact ih q (by simpa using hq)

/-- The pieces of a source stay its pieces before another text exactly if the last
one ends there. -/
theorem Reads.before_iff {source more : List Char} {pieces : List Piece}
    (h : Reads source pieces []) :
    Reads (source ++ more) pieces more ↔ ∀ p ∈ pieces.getLast?, p.EndsBefore more :=
  ⟨fun hm => hm.getLast?_endsBefore, fun hm => h.append fun _ => hm⟩

theorem eq_of_map_length_eq {ps qs : List Piece} {a b : List Char}
    (hp : ∀ p ∈ ps, p.WellFormed) (hq : ∀ q ∈ qs, q.WellFormed)
    (hl : qs.map Piece.length = ps.map Piece.length) (ht : textOf ps ++ a = textOf qs ++ b) :
    qs = ps := by
  induction ps generalizing qs with
  | nil => simpa using hl
  | cons p ps ih =>
    cases qs with
    | nil => simp at hl
    | cons q qs =>
      simp only [List.map_cons, List.cons.injEq] at hl
      simp only [textOf_cons, List.append_assoc] at ht
      obtain ⟨hpq, htail⟩ := List.append_inj ht hl.1.symm
      have hhead := Piece.eq_of_text_eq (hq q (by simp)) (hp p (by simp)) hpq.symm
      have hrest := ih (fun r hr => hp r (List.mem_cons_of_mem p hr))
        (fun r hr => hq r (List.mem_cons_of_mem q hr)) hl.2 htail
      rw [hhead, hrest]

/-- Steps that look alike on texts that begin alike read the same pieces, since the
lengths cut out the same texts. -/
theorem pieces_prefix_of_observed {source more rest : List Char} {ps qs : List Piece}
    (hp : Reads source ps []) (hq : Reads (source ++ more) qs rest)
    (h : (stepsFrom 0 1 ps).map Step.observed <+: (stepsFrom 0 1 qs).map Step.observed) :
    ps <+: qs := by
  have hlength (pieces : List Piece) :
      ((stepsFrom 0 1 pieces).map Step.observed).map (·.2.1) = pieces.map Piece.length := by
    have hm := congrArg (List.map Piece.length) (map_piece_stepsFrom 0 1 pieces)
    rw [List.map_map] at hm ⊢
    exact hm
  have hlengths := h.map (·.2.1)
  rw [hlength, hlength] at hlengths
  obtain ⟨lengths, hl⟩ := hlengths
  obtain ⟨front, back, hsplit, hfront, _⟩ := List.map_eq_append_iff.1 hl.symm
  have htext : textOf ps ++ more = textOf front ++ (textOf back ++ rest) := by
    rw [← List.append_assoc, ← textOf_append, ← hsplit, ← hq.source_eq, hp.source_eq,
      List.append_nil]
  have hwf : ∀ q ∈ front, q.WellFormed := fun q hm => hq.wellFormed q (by simp [hsplit, hm])
  rw [hsplit, eq_of_map_length_eq hp.wellFormed hwf hfront htext]
  exact List.prefix_append ps back

/-- The pieces of the first text are the first pieces of both texts exactly if they are
a reading of it there. -/
theorem Reads.prefix_iff {s t rest : List Char} {ps qs : List Piece} {stop : Option Fault}
    (hs : Reads s ps []) (hst : Reading (s ++ t) qs rest stop) :
    ps <+: qs ↔ Reads (s ++ t) ps t := by
  constructor
  · rintro ⟨back, rfl⟩
    obtain ⟨middle, hfront, _⟩ := reads_append_iff.1 hst.reads
    have htext : s ++ t = s ++ middle := by
      rw [hfront.source_eq, hs.source_eq, List.append_nil]
    rwa [← List.append_cancel_left htext] at hfront
  · intro hfront
    obtain ⟨back, rest', stop', hback⟩ := exists_reading t
    have hboth : Reading (s ++ t) (ps ++ back) rest' stop' :=
      ⟨reads_append_iff.2 ⟨t, hfront, hback.reads⟩, hback.stops⟩
    rw [(hst.unique hboth).1]
    exact List.prefix_append ps back

theorem observed_prefix_iff {source more rest : List Char} {ps qs : List Piece}
    (hp : Reads source ps []) (hq : Reads (source ++ more) qs rest) :
    (stepsFrom 0 1 ps).map Step.observed <+: (stepsFrom 0 1 qs).map Step.observed ↔ ps <+: qs := by
  refine ⟨pieces_prefix_of_observed hp hq, ?_⟩
  rintro ⟨back, rfl⟩
  rw [stepsFrom_append, List.map_append]
  exact List.prefix_append _ _

/-! ## The run over both texts -/

theorem Reads.ofSource_append {s t : List Char} {pieces : List Piece} (hs : Reads s pieces [])
    (hst : Reads (s ++ t) pieces t) :
    Run.ofSource (s ++ t) = (Run.ofSource s).andThen (Run.ofSource t) := by
  have hrun : Reading s pieces [] none := ⟨hs, rfl⟩
  have hshift := runFrom_add 0 1 (textOf pieces).length (linesOf pieces) t
  rw [Nat.add_zero, Nat.add_comm] at hshift
  rw [Run.ofSource, runFrom_of_reads hst, Nat.zero_add, hshift, hrun.ofSource_eq]
  simp [Run.andThen, Run.shift, Run.ofSource, stopLines]

theorem Run.tokens_andThen (first second : Run) :
    (first.andThen second).tokens = first.tokens ++ second.tokens := by
  simp [Run.tokens, Run.andThen, List.filterMap_map, Function.comp_def, Step.shift]

/-- What the two runs give together: the tokens of both, or the error of the second
at a later line. -/
theorem Run.result_andThen (first second : Run) :
    (first.andThen second).result =
      match second.result with
      | .ok tokens => .ok (first.tokens ++ tokens)
      | .error e => .error ⟨e.fault, first.line - 1 + e.line⟩ := by
  have htokens := first.tokens_andThen second
  cases hf : second.fault with
  | none => simp [Run.result, Run.error?, Run.andThen, hf] at htokens ⊢; exact htokens
  | some fault => simp [Run.result, Run.error?, Run.andThen, hf]

/-- The steps of a source stay the first steps before another text exactly if its
last step is closed to the next character. Then the whole run is the one run after
the other, and so are the tokens and the error. -/
theorem run_append_iff_closedTo {s : List Char} {tokens : List Token} (hs : scan s = .ok tokens)
    (c : Char) (t : List Char) :
    ((Run.ofSource s).steps.map Step.observed <+:
        (Run.ofSource (s ++ c :: t)).steps.map Step.observed ↔ (Run.ofSource s).ClosedTo c) ∧
    ((Run.ofSource s).ClosedTo c →
      (Run.ofSource s).pos = s.length ∧
      Run.ofSource (s ++ c :: t) = (Run.ofSource s).andThen (Run.ofSource (c :: t)) ∧
      (∀ tokens', scan (c :: t) = .ok tokens' → scan (s ++ c :: t) = .ok (tokens ++ tokens')) ∧
      ∀ fault line, scan (c :: t) = .error ⟨fault, line⟩ →
        scan (s ++ c :: t) = .error ⟨fault, (Run.ofSource s).line - 1 + line⟩) := by
  obtain ⟨pieces, hr, htokens⟩ := reads_of_scan_eq_ok hs
  have hrun : Reading s pieces [] none := ⟨hr, rfl⟩
  have hclosed : (Run.ofSource s).ClosedTo c ↔ Reads (s ++ c :: t) pieces (c :: t) := by
    simp only [hrun.closedTo_iff, hr.before_iff, Piece.endsBefore_cons]
  constructor
  · obtain ⟨all, rest, stop, hall⟩ := exists_reading (s ++ c :: t)
    rw [hclosed, hrun.ofSource_eq, hall.ofSource_eq, observed_prefix_iff hr hall.reads,
      hr.prefix_iff hall]
  · intro hc
    have happend := hr.ofSource_append (hclosed.1 hc)
    have hpos : (Run.ofSource s).pos = s.length := by
      rw [hrun.ofSource_eq, hr.source_eq, List.append_nil]
    have hresult := (Run.ofSource s).result_andThen (Run.ofSource (c :: t))
    rw [← happend, hrun.tokens_eq, htokens] at hresult
    refine ⟨hpos, happend, fun tokens' ht => ?_, fun fault line ht => ?_⟩
    · rw [scan] at ht ⊢
      rw [hresult, ht]
    · rw [scan] at ht ⊢
      rw [hresult, ht]

/-- A plus is closed to an equals sign, though not to another plus, and the newline
before it moves the error of the second text. -/
theorem scan_plus_then_open_string :
    scan ['x', '\n', '+'] = .ok [⟨.identifier, ['x']⟩, ⟨.operator, ['+']⟩] ∧
    (Run.ofSource ['x', '\n', '+']).ClosedTo '=' ∧
    ¬ (Run.ofSource ['x', '\n', '+']).ClosedTo '+' ∧
    scan ['=', '"'] = .error ⟨.openString, 1⟩ ∧
    scan ['x', '\n', '+', '=', '"'] = .error ⟨.openString, 2⟩ := by
  have hread : Reads ['x', '\n', '+'] [.word ['x'], .newline, .operator .plus] [] := by
    refine .piece ?_ ?_ rfl (.piece ?_ ?_ rfl (.piece ?_ ?_ rfl (.stop _)))
    all_goals simp [Piece.WellFormed, Piece.EndsBefore, Piece.extendsBy, isWordStart, isWordChar,
      maxWordLength]
  have hrun : Reading ['x', '\n', '+'] [.word ['x'], .newline, .operator .plus] [] none :=
    ⟨hread, rfl⟩
  have hs : scan ['x', '\n', '+'] = .ok [⟨.identifier, ['x']⟩, ⟨.operator, ['+']⟩] :=
    hread.scan_eq_ok
  have hassign : Reads ['=', '"'] [.operator .assign] ['"'] :=
    .piece trivial (by simp [Piece.EndsBefore, Piece.extendsBy]) rfl (.stop _)
  have ht : scan ['=', '"'] = .error ⟨.openString, 1⟩ := hassign.scan_eq_error (.string (by simp))
  have hc : (Run.ofSource ['x', '\n', '+']).ClosedTo '=' := by
    simp [hrun.closedTo_iff, Piece.extendsBy]
  have ho : ¬ (Run.ofSource ['x', '\n', '+']).ClosedTo '+' := by
    simp [hrun.closedTo_iff, Piece.extendsBy]
  obtain ⟨_, _, _, herror⟩ := (run_append_iff_closedTo hs '=' ['"']).2 hc
  have hst := herror _ _ ht
  rw [hrun.ofSource_eq] at hst
  exact ⟨hs, hc, ho, ht, hst⟩

end Ceng
