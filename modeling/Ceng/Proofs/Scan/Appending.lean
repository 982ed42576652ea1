import Ceng.Proofs.Scan.Reading

/-!
# Appending text to a source

More text at the end leaves every step as it is, apart from the last one. A word
or a number that is too long stays too long. A literal that is never closed is
closed by its own delimiter, and the lines counted for the error are the lines
that the closed literal counts.
-/
namespace Ceng

/-! ## Steps -/

theorem Reads.steps_isPrefix {source rest : List Char} {pieces : List Piece}
    (h : Reads source pieces rest) : stepsFrom 0 1 pieces <+: (Run.ofSource source).steps := by
  rw [Run.ofSource, runFrom_of_reads h]
  exact List.prefix_append _ _

/-- All pieces but the last end before a piece, so nothing after the source can
reach them. -/
theorem Reads.dropLast_append {source rest : List Char} {pieces : List Piece}
    (h : Reads source pieces rest) (more : List Char) :
    ∃ middle, Reads (source ++ more) pieces.dropLast middle := by
  cases List.eq_nil_or_concat pieces with
  | inl hnil => exact ⟨_, by rw [hnil]; exact .stop _⟩
  | inr hlast =>
    obtain ⟨front, last, rfl⟩ := hlast
    rw [List.concat_eq_append] at h ⊢
    obtain ⟨middle, hfront, hr⟩ := reads_append_iff.1 h
    have hne : middle ≠ [] := by
      intro hnil
      have htext := hr.source_eq
      rw [hnil, textOf_cons, List.append_assoc] at htext
      exact (hr.wellFormed last (by simp)).text_ne_nil (List.append_eq_nil_iff.1 htext.symm).1
    rw [List.dropLast_concat]
    exact ⟨_, hfront.append fun hnil => absurd hnil hne⟩

theorem stepsFrom_dropLast (pos line : Nat) (pieces : List Piece) :
    (stepsFrom pos line pieces).dropLast = stepsFrom pos line pieces.dropLast := by
  cases List.eq_nil_or_concat pieces with
  | inl hnil => rw [hnil]; rfl
  | inr hlast =>
    obtain ⟨front, last, rfl⟩ := hlast
    rw [List.concat_eq_append, stepsFrom_append, stepsFrom, stepsFrom, List.dropLast_concat,
      List.dropLast_concat]

theorem stepsFrom_getLast?_end {pos line : Nat} {pieces : List Piece} {step : Step}
    (h : (stepsFrom pos line pieces).getLast? = some step) :
    step.pos + step.piece.length = pos + (textOf pieces).length := by
  cases List.eq_nil_or_concat pieces with
  | inl hnil => rw [hnil] at h; cases h
  | inr hlast =>
    obtain ⟨front, last, rfl⟩ := hlast
    rw [List.concat_eq_append, stepsFrom_append, stepsFrom, stepsFrom, List.getLast?_concat] at h
    cases h
    simp [Piece.length, Nat.add_assoc]

theorem dropLast_steps_isPrefix (s t : List Char) :
    (Run.ofSource s).steps.dropLast <+: (Run.ofSource (s ++ t)).steps := by
  obtain ⟨pieces, rest, stop, h⟩ := exists_reading s
  obtain ⟨middle, hm⟩ := h.reads.dropLast_append t
  rw [h.ofSource_eq, stepsFrom_dropLast]
  exact hm.steps_isPrefix

theorem getElem?_of_isPrefix {α : Type} {xs ys : List α} {i : Nat} {x : α} (h : xs <+: ys)
    (hx : xs[i]? = some x) : ys[i]? = some x := by
  obtain ⟨hi, rfl⟩ := List.getElem?_eq_some_iff.1 hx
  exact List.prefix_iff_getElem?.1 h i hi

/-- A step that ends before the source does is the same step of any longer source.
Only the last step can end where the source ends, and only if nothing is left. -/
theorem step_of_append {s : List Char} {i : Nat} {step : Step}
    (h : (Run.ofSource s).steps[i]? = some step) (hend : step.pos + step.piece.length < s.length)
    (t : List Char) : (Run.ofSource (s ++ t)).steps[i]? = some step := by
  obtain ⟨pieces, rest, stop, hr⟩ := exists_reading s
  by_cases hrest : rest = []
  · have hlt : i < (Run.ofSource s).steps.length := (List.getElem?_eq_some_iff.1 h).1
    have hnot : ¬ i + 1 = (Run.ofSource s).steps.length := by
      intro hi
      have hlast : (Run.ofSource s).steps.getLast? = some step := by
        rw [List.getLast?_eq_getElem?, ← hi, Nat.add_sub_cancel, h]
      rw [hr.ofSource_eq] at hlast
      have he := stepsFrom_getLast?_end hlast
      have htext : s.length = (textOf pieces).length := by
        rw [hr.reads.source_eq, hrest, List.append_nil]
      omega
    refine getElem?_of_isPrefix (dropLast_steps_isPrefix s t) ?_
    rw [List.getElem?_dropLast, if_pos (by omega), h]
  · have happend : Reads (s ++ t) pieces (rest ++ t) :=
      hr.reads.append fun hnil => absurd hnil hrest
    rw [hr.ofSource_eq] at h
    exact getElem?_of_isPrefix happend.steps_isPrefix h

/-! ## Errors -/

/-- A run of word characters that is too long is malformed whatever follows it: more
word characters only make it longer. -/
theorem Malformed.of_long_word {text : List Char} (hh : ∃ c ∈ text.head?, isWordStart c = true)
    (ht : ∀ c ∈ text, isWordChar c = true) (hl : maxWordLength < text.length) (rest : List Char) :
    Malformed .wordTooLong (text ++ rest) := by
  obtain ⟨c, hc, hs⟩ := hh
  have hsplit : text ++ rest =
      (text ++ rest.takeWhile isWordChar) ++ rest.dropWhile isWordChar := by
    rw [List.append_assoc, List.takeWhile_append_dropWhile]
  rw [hsplit]
  refine .word ⟨c, ?_, hs⟩ ?_ ?_ fun d hd => head?_dropWhile_neg hd
  · rw [Option.mem_def, List.head?_append, Option.mem_def.1 hc, Option.some_or]
  · intro d hd
    rcases List.mem_append.1 hd with hd | hd
    · exact ht d hd
    · exact mem_takeWhile_pos hd
  · rw [List.length_append]
    omega

theorem Malformed.of_long_number {digits : List Char} (hd : ∀ c ∈ digits, c.isDigit = true)
    (hl : maxDigits < digits.length) (negative : Bool) (rest : List Char) :
    Malformed (.numberTooLong negative) ((if negative then ['-'] else []) ++ digits ++ rest) := by
  have hsplit : (if negative then ['-'] else []) ++ digits ++ rest =
      (if negative then ['-'] else []) ++ (digits ++ rest.takeWhile Char.isDigit) ++
        rest.dropWhile Char.isDigit := by
    simp only [List.append_assoc, List.takeWhile_append_dropWhile]
  rw [hsplit]
  refine .number ?_ ?_ fun d hd => head?_dropWhile_neg hd
  · intro d hm
    rcases List.mem_append.1 hm with hm | hm
    · exact hd d hm
    · exact mem_takeWhile_pos hm
  · rw [List.length_append]
    omega

/-- The faults that no further text can mend. -/
def Fault.IsExcess (fault : Fault) : Prop :=
  fault = .wordTooLong ∨ ∃ negative, fault = .numberTooLong negative

theorem Malformed.append_of_isExcess {fault : Fault} {rest : List Char} (h : Malformed fault rest)
    (hf : fault.IsExcess) (more : List Char) : Malformed fault (rest ++ more) := by
  cases h with
  | word hh ht hl _ =>
    rw [List.append_assoc]
    exact .of_long_word hh ht hl _
  | number hd hl _ =>
    rw [List.append_assoc]
    exact .of_long_number hd hl _ _
  | string _ => simp [Fault.IsExcess] at hf
  | comment _ => simp [Fault.IsExcess] at hf

theorem Fault.lines_of_isExcess {fault : Fault} (h : fault.IsExcess) (rest : List Char) :
    fault.lines rest = 0 := by
  obtain rfl | ⟨negative, rfl⟩ := h <;> rfl

theorem Fault.lines_of_literal {fault : Fault} (h : fault = .openString ∨ fault = .openComment)
    (rest : List Char) : fault.lines rest = rest.count '\n' := by
  obtain rfl | rfl := h <;> rfl

theorem scan_append_of_isExcess {s : List Char} {e : LexicalError} (h : scan s = .error e)
    (hf : e.fault.IsExcess) (t : List Char) : scan (s ++ t) = .error e := by
  obtain ⟨pieces, rest, hr, hm, hline⟩ := reads_of_scan_eq_error h
  have happend : Reads (s ++ t) pieces (rest ++ t) :=
    hr.append fun hnil => absurd hnil hm.ne_nil
  rw [Fault.lines_of_isExcess hf] at hline
  rw [happend.scan_eq_error (hm.append_of_isExcess hf t), Fault.lines_of_isExcess hf, ← hline]

/-- What is left of a source and the text put after it may be one more piece. -/
theorem Reads.append_piece {source rest more : List Char} {pieces : List Piece} {p : Piece}
    (h : Reads source pieces rest) (hne : rest ≠ []) (hw : p.WellFormed)
    (hp : rest ++ more = p.text) : Reads (source ++ more) (pieces ++ [p]) [] := by
  have hlast : Reads (rest ++ more) [p] [] :=
    .piece hw p.endsBefore_nil (by rw [hp, List.append_nil]) (.stop [])
  exact reads_append_iff.2 ⟨_, h.append fun hnil => absurd hnil hne, hlast⟩

/-- A literal that is never closed, closed at the end of the source by `more`, gives
the piece `p` and counts the lines that the error has counted. -/
theorem run_append_of_closing {s rest more : List Char} {pieces : List Piece} {p : Piece}
    {fault : Fault} (hr : Reads s pieces rest) (hm : Malformed fault rest) (hw : p.WellFormed)
    (hp : rest ++ more = p.text) (hl : p.lines = fault.lines rest) :
    scan (s ++ more) = .ok ((Run.ofSource s).tokens ++ tokensOf [p]) ∧
      (Run.ofSource (s ++ more)).line = 1 + linesOf pieces + fault.lines rest := by
  have hbefore : Reading s pieces rest (some fault) := ⟨hr, hm⟩
  have hclosed := hr.append_piece hm.ne_nil hw hp
  have hafter : Reading (s ++ more) (pieces ++ [p]) [] none := ⟨hclosed, rfl⟩
  constructor
  · rw [hclosed.scan_eq_ok, tokensOf_append, hbefore.tokens_eq]
  · rw [hafter.ofSource_eq, ← hl]
    simp [stopLines, Nat.add_assoc]

theorem scan_append_quote {s : List Char} {line : Nat} (h : scan s = .error ⟨.openString, line⟩) :
    scan (s ++ ['"']) = .ok ((Run.ofSource s).tokens ++
      [⟨.stringConstant, s.drop ((Run.ofSource s).pos + 1)⟩]) ∧
    (Run.ofSource (s ++ ['"'])).line = line := by
  obtain ⟨pieces, rest, hr, hm, rfl⟩ := reads_of_scan_eq_error h
  have hrun : Reading s pieces rest (some .openString) := ⟨hr, hm⟩
  cases hm with
  | @string body hq =>
    have hbody : s.drop ((Run.ofSource s).pos + 1) = body := by
      rw [hrun.ofSource_eq, hr.source_eq, List.drop_length_add_append, List.drop_one,
        List.tail_cons]
    have hlines : (Piece.string body).lines = Fault.openString.lines ('"' :: body) := by
      simp [Piece.lines, Fault.lines]
    rw [hbody]
    exact run_append_of_closing (p := .string body) hr (.string hq) hq rfl hlines

theorem scan_append_star_slash {s : List Char} {line : Nat}
    (h : scan s = .error ⟨.openComment, line⟩) :
    scan (s ++ ['*', '/']) = .ok (Run.ofSource s).tokens ∧
    (Run.ofSource (s ++ ['*', '/'])).line = line := by
  obtain ⟨pieces, rest, hr, hm, rfl⟩ := reads_of_scan_eq_error h
  cases hm with
  | @comment body hc =>
    have hlines : (Piece.blockComment body).lines =
        Fault.openComment.lines ('/' :: '*' :: body) := by
      simp [Piece.lines, Fault.lines]
    have hnone : tokensOf [.blockComment body] = [] := rfl
    have hclosed := run_append_of_closing (p := .blockComment body) hr (.comment hc) hc rfl hlines
    rwa [hnone, List.append_nil] at hclosed

/-- What more text at the end can change: the last step if it reaches the end of the
source, and an error about a literal, which its delimiter mends. -/
theorem run_append_stable (s t : List Char) :
    (∀ (i : Nat) (step : Step), (Run.ofSource s).steps[i]? = some step →
      step.pos + step.piece.length < s.length → (Run.ofSource (s ++ t)).steps[i]? = some step) ∧
    (Run.ofSource s).steps.dropLast <+: (Run.ofSource (s ++ t)).steps ∧
    (∀ e, scan s = .error e → e.fault.IsExcess → scan (s ++ t) = .error e) ∧
    (∀ line, scan s = .error ⟨.openString, line⟩ →
      scan (s ++ ['"']) = .ok ((Run.ofSource s).tokens ++
        [⟨.stringConstant, s.drop ((Run.ofSource s).pos + 1)⟩]) ∧
      (Run.ofSource (s ++ ['"'])).line = line) ∧
    ∀ line, scan s = .error ⟨.openComment, line⟩ →
      scan (s ++ ['*', '/']) = .ok (Run.ofSource s).tokens ∧
      (Run.ofSource (s ++ ['*', '/'])).line = line :=
  ⟨fun _ _ h hend => step_of_append h hend t, dropLast_steps_isPrefix s t,
    fun _ h hf => scan_append_of_isExcess h hf t, fun _ => scan_append_quote,
    fun _ => scan_append_star_slash⟩

/-- An open string keeps the steps before it and is mended by a quote. -/
theorem scan_assign_then_open_string :
    (Run.ofSource ['x', '=', '"', 'a', '\n']).steps[1]? = some ⟨1, .operator .assign, 1⟩ ∧
    (Run.ofSource (['x', '=', '"', 'a', '\n'] ++ [';'])).steps[1]? =
      some ⟨1, .operator .assign, 1⟩ ∧
    scan ['x', '=', '"', 'a', '\n'] = .error ⟨.openString, 2⟩ ∧
    (Run.ofSource (['x', '=', '"', 'a', '\n'] ++ ['"'])).line = 2 ∧
    scan ['/', '*', '/'] = .error ⟨.openComment, 1⟩ ∧
    scan (['/', '*', '/'] ++ ['*', '/']) = .ok (Run.ofSource ['/', '*', '/']).tokens ∧
    scan (List.replicate 11 '7' ++ ['x']) = .error ⟨.numberTooLong false, 1⟩ := by
  have hread : Reads ['x', '=', '"', 'a', '\n'] [.word ['x'], .operator .assign]
      ['"', 'a', '\n'] := by
    refine .piece ?_ ?_ rfl (.piece ?_ ?_ rfl (.stop _))
    all_goals simp [Piece.WellFormed, Piece.EndsBefore, Piece.extendsBy, isWordStart, isWordChar,
      maxWordLength]
  have hquote : Malformed .openString ['"', 'a', '\n'] := .string (by simp)
  have hreading : Reading ['x', '=', '"', 'a', '\n'] _ _ (some .openString) := ⟨hread, hquote⟩
  have hstep : (Run.ofSource ['x', '=', '"', 'a', '\n']).steps[1]? =
      some ⟨1, .operator .assign, 1⟩ := by
    rw [hreading.ofSource_eq]
    rfl
  have hstring : scan ['x', '=', '"', 'a', '\n'] = .error ⟨.openString, 2⟩ :=
    hread.scan_eq_error hquote
  have hcomment : scan ['/', '*', '/'] = .error ⟨.openComment, 1⟩ :=
    (Reads.stop _).scan_eq_error (.comment fun h => absurd h.length_le (by simp))
  have hlong : Malformed (.numberTooLong false) (List.replicate 11 '7') := by
    simpa using
      @Malformed.of_long_number (List.replicate 11 '7') (by simp) (by simp [maxDigits]) false []
  have hdigits : scan (List.replicate 11 '7') = .error ⟨.numberTooLong false, 1⟩ :=
    (Reads.stop _).scan_eq_error hlong
  obtain ⟨hsteps, _, _, hclose, _⟩ := run_append_stable ['x', '=', '"', 'a', '\n'] [';']
  obtain ⟨_, _, _, _, hend⟩ := run_append_stable ['/', '*', '/'] []
  obtain ⟨_, _, hexcess, _, _⟩ := run_append_stable (List.replicate 11 '7') ['x']
  exact ⟨hstep, hsteps 1 _ hstep (by decide), hstring, (hclose 2 hstring).2, hcomment,
    (hend 1 hcomment).1, hexcess _ hdigits (.inr ⟨false, rfl⟩)⟩

end Ceng
