import Ceng.Proofs.Scan.Lines
import Ceng.Scan.Blanking

/-!
# Scanning a source without its comments

A comment separates what stands before it from what stands after it, and so do the
blanks put in its place. A source and its blanked form are therefore read as the same
pieces, apart from the comments, which become gaps of the same length. A comment that
is never closed is a fault and stays as it is.
-/
namespace Ceng

def Piece.isComment : Piece → Bool
  | .blockComment _ | .lineComment _ => true
  | _ => false

/-- Some comment among the steps has consumed the character at this position. -/
def InComment (steps : List Step) (i : Nat) : Prop :=
  ∃ step ∈ steps, step.piece.isComment = true ∧ step.pos ≤ i ∧ i < step.pos + step.piece.length

/-- The token of a step, with the cursor before it and the characters consumed. -/
def Step.site? (step : Step) : Option (Nat × Nat × Token) :=
  step.piece.token?.map fun t => (step.pos, step.piece.length, t)

/-! ## Blanks -/

@[simp] theorem length_blank (text : List Char) : (blank text).length = text.length := by
  simp [blank]

theorem blank_append (text more : List Char) : blank (text ++ more) = blank text ++ blank more := by
  simp [blank]

theorem count_newline_blank (text : List Char) : (blank text).count '\n' = text.count '\n' := by
  induction text with
  | nil => rfl
  | cons c text ih =>
    change ((if c = '\n' then c else ' ') :: blank text).count '\n' = _
    by_cases hc : c = '\n'
    · simp [hc, ih]
    · simp [hc, ih]

theorem isGap_blank (text : List Char) : IsGap (blank text) := by
  intro c hc
  obtain ⟨d, _, rfl⟩ := List.mem_map.1 hc
  by_cases hd : d = '\n'
  · rw [if_pos hd, hd]
    decide
  · rw [if_neg hd]
    decide

/-- Blanking a text moves none of its newlines and makes no new one. -/
theorem getElem?_blank_eq_newline_iff (text : List Char) (i : Nat) :
    (blank text)[i]? = some '\n' ↔ text[i]? = some '\n' := by
  rw [blank, List.getElem?_map]
  cases text[i]? with
  | none => simp
  | some c => by_cases hc : c = '\n' <;> simp [hc]

/-! ## Pieces -/

namespace Piece

/-- What a piece is read as once comments are blanked. -/
def blanked (p : Piece) : List Piece := if p.isComment then piecesOfGap (blank p.text) else [p]

theorem textOf_piecesOfGap (gap : List Char) : textOf (piecesOfGap gap) = gap := by
  induction gap with
  | nil => rfl
  | cons c gap ih =>
    change textOf (ofGap c :: piecesOfGap gap) = _
    rw [textOf_cons, ih, text_ofGap, List.singleton_append]

theorem isComment_of_mem_piecesOfGap {gap : List Char} {p : Piece} (h : p ∈ piecesOfGap gap) :
    p.isComment = false := by
  obtain ⟨c, _, rfl⟩ := List.mem_map.1 h
  by_cases hc : c = '\n' <;> simp [ofGap, hc, isComment]

theorem withoutComment_eq (p : Piece) :
    p.withoutComment = if p.isComment then blank p.text else p.text := by
  cases p <;> rfl

theorem textOf_blanked (p : Piece) : textOf p.blanked = p.withoutComment := by
  rw [withoutComment_eq, blanked]
  by_cases hp : p.isComment = true
  · rw [if_pos hp, if_pos hp, textOf_piecesOfGap]
  · rw [if_neg hp, if_neg hp, textOf_cons, textOf_nil, List.append_nil]

theorem length_textOf_blanked (p : Piece) : (textOf p.blanked).length = p.length := by
  rw [textOf_blanked, withoutComment_eq, length]
  by_cases hp : p.isComment = true
  · rw [if_pos hp, length_blank]
  · rw [if_neg hp]

theorem token?_eq_none_of_isComment {p : Piece} (h : p.isComment = true) : p.token? = none := by
  cases p with
  | blockComment body => rfl
  | lineComment body => rfl
  | _ => cases h

theorem isComment_of_mem_blanked {p q : Piece} (h : q ∈ p.blanked) : q.isComment = false := by
  by_cases hp : p.isComment = true
  · rw [blanked, if_pos hp] at h
    exact isComment_of_mem_piecesOfGap h
  · rw [blanked, if_neg hp, List.mem_singleton] at h
    rw [h]
    simpa using hp

theorem isComment_of_isLineComment {p : Piece} (h : p.isLineComment = true) :
    p.isComment = true := by
  cases p with
  | lineComment body => rfl
  | _ => cases h

/-- The blanks count the newlines of a comment, and not the extra line of a line comment. -/
theorem WellFormed.linesOf_blanked {p : Piece} (h : p.WellFormed) :
    linesOf p.blanked + (if p.isLineComment then 1 else 0) = p.lines := by
  rw [h.lines_eq]
  by_cases hp : p.isComment = true
  · rw [blanked, if_pos hp, linesOf_piecesOfGap, count_newline_blank]
  · have hl : p.isLineComment = false := by
      rw [Bool.eq_false_iff]
      exact fun hl => hp (isComment_of_isLineComment hl)
    have hlines := h.lines_eq
    rw [blanked, if_neg hp, linesOf_cons, linesOf_nil, hlines, hl]
    rfl

end Piece

/-- The pieces that a source is read as once its comments are blanked. -/
def blankedOf (pieces : List Piece) : List Piece := pieces.flatMap Piece.blanked

@[simp] theorem blankedOf_cons (p : Piece) (pieces : List Piece) :
    blankedOf (p :: pieces) = p.blanked ++ blankedOf pieces := rfl

theorem textOf_blankedOf (pieces : List Piece) :
    textOf (blankedOf pieces) = pieces.flatMap Piece.withoutComment := by
  induction pieces with
  | nil => rfl
  | cons p pieces ih =>
    rw [blankedOf_cons, textOf_append, ih, p.textOf_blanked, List.flatMap_cons]

theorem length_textOf_blankedOf (pieces : List Piece) :
    (textOf (blankedOf pieces)).length = (textOf pieces).length := by
  induction pieces with
  | nil => rfl
  | cons p pieces ih =>
    rw [blankedOf_cons, textOf_append, textOf_cons, List.length_append, List.length_append, ih,
      p.length_textOf_blanked, Piece.length]

theorem isComment_of_mem_blankedOf {pieces : List Piece} {q : Piece} (h : q ∈ blankedOf pieces) :
    q.isComment = false := by
  obtain ⟨p, _, hq⟩ := List.mem_flatMap.1 h
  exact Piece.isComment_of_mem_blanked hq

/-- Pieces without a comment stay as they are. -/
theorem blankedOf_of_no_comment {pieces : List Piece} (h : ∀ p ∈ pieces, p.isComment = false) :
    blankedOf pieces = pieces := by
  induction pieces with
  | nil => rfl
  | cons p pieces ih =>
    have hp : ¬ p.isComment = true := by simp [h p (by simp)]
    rw [blankedOf_cons, ih fun q hq => h q (List.mem_cons_of_mem p hq), Piece.blanked, if_neg hp,
      List.singleton_append]

theorem tokensOf_blankedOf (pieces : List Piece) :
    tokensOf (blankedOf pieces) = tokensOf pieces := by
  induction pieces with
  | nil => rfl
  | cons p pieces ih =>
    have hcons : tokensOf (p :: pieces) = tokensOf [p] ++ tokensOf pieces :=
      tokensOf_append [p] pieces
    rw [blankedOf_cons, tokensOf_append, ih, hcons, Piece.blanked]
    by_cases hp : p.isComment = true
    · have hnone : tokensOf [p] = [] := by
        simp [tokensOf, Piece.token?_eq_none_of_isComment hp]
      rw [if_pos hp, tokensOf_piecesOfGap, hnone]
    · rw [if_neg hp]

theorem linesOf_blankedOf {pieces : List Piece} (h : ∀ p ∈ pieces, p.WellFormed) :
    linesOf (blankedOf pieces) + pieces.countP Piece.isLineComment = linesOf pieces := by
  induction pieces with
  | nil => rfl
  | cons p pieces ih =>
    have hp := (h p (by simp)).linesOf_blanked
    have hrest := ih fun q hq => h q (List.mem_cons_of_mem p hq)
    rw [blankedOf_cons, linesOf_append, linesOf_cons, List.countP_cons]
    omega

/-! ## Reading -/

/-- What comes next after a place comes next there once comments are blanked, or a
space does. -/
theorem head?_textOf_blankedOf {pieces : List Piece} {rest : List Char}
    (hw : ∀ p ∈ pieces, p.WellFormed) {c : Char}
    (hc : c ∈ (textOf (blankedOf pieces) ++ rest).head?) :
    c = ' ' ∨ c ∈ (textOf pieces ++ rest).head? := by
  cases pieces with
  | nil => exact .inr hc
  | cons p pieces =>
    obtain ⟨d, text, ht⟩ := List.exists_cons_of_ne_nil (hw p (by simp)).text_ne_nil
    rw [blankedOf_cons, textOf_append, p.textOf_blanked, p.withoutComment_eq] at hc
    by_cases hp : p.isComment = true
    · left
      rw [if_pos hp] at hc
      cases p with
      | blockComment body => exact (Option.some.inj hc).symm
      | lineComment body => exact (Option.some.inj hc).symm
      | _ => cases hp
    · right
      rw [if_neg hp, ht] at hc
      rw [textOf_cons, ht]
      exact hc

/-- A source reads after blanking as it did before, up to the same place. -/
theorem Reads.blanked {source rest : List Char} {pieces : List Piece}
    (h : Reads source pieces rest) :
    Reads (textOf (blankedOf pieces) ++ rest) (blankedOf pieces) rest := by
  induction h with
  | stop rest => exact .stop rest
  | @piece p pieces source after rest hw he _ hr ih =>
    rw [blankedOf_cons, textOf_append, List.append_assoc, Piece.blanked]
    by_cases hp : p.isComment = true
    · rw [if_pos hp, Piece.textOf_piecesOfGap]
      exact ih.gap (isGap_blank p.text)
    · -- Only a line comment would go on with a space.
      have hspace : p.extendsBy ' ' = false := by
        rw [Bool.eq_false_iff]
        intro hs
        have hline : ∀ body, p ≠ .lineComment body := by
          rintro body rfl
          exact hp rfl
        exact absurd (Piece.isSignificant_of_extendsBy hs hline) (by decide)
      have hend : p.EndsBefore (textOf (blankedOf pieces) ++ rest) := by
        intro c hc
        rcases head?_textOf_blankedOf hr.wellFormed hc with rfl | hc
        · exact hspace
        · exact he c (by rwa [hr.source_eq])
      rw [if_neg hp]
      exact .piece hw hend (by simp) ih

/-! ## Steps -/

theorem filterMap_site?_eq_nil {pieces : List Piece} (h : ∀ p ∈ pieces, p.token? = none)
    (pos line : Nat) : (stepsFrom pos line pieces).filterMap Step.site? = [] := by
  induction pieces generalizing pos line with
  | nil => rfl
  | cons p pieces ih =>
    have hp : (Step.mk pos p (line + p.lines)).site? = none := by
      simp [Step.site?, h p (by simp)]
    rw [stepsFrom, List.filterMap_cons_none hp,
      ih fun q hq => h q (List.mem_cons_of_mem p hq)]

/-- Tokens are read at the same places, on whatever lines. -/
theorem filterMap_site?_blankedOf (pos line line' : Nat) (pieces : List Piece) :
    (stepsFrom pos line (blankedOf pieces)).filterMap Step.site? =
      (stepsFrom pos line' pieces).filterMap Step.site? := by
  induction pieces generalizing pos line line' with
  | nil => rfl
  | cons p pieces ih =>
    have hcons : p :: pieces = [p] ++ pieces := rfl
    rw [blankedOf_cons, hcons, stepsFrom_append, stepsFrom_append, List.filterMap_append,
      List.filterMap_append, p.length_textOf_blanked, Piece.length]
    have htext : textOf [p] = p.text := by simp
    rw [htext, ih _ _ (line' + linesOf [p])]
    congr 1
    by_cases hp : p.isComment = true
    · rw [filterMap_site?_eq_nil, filterMap_site?_eq_nil]
      · intro q hq
        rw [List.mem_singleton.1 hq, Piece.token?_eq_none_of_isComment hp]
      · intro q hq
        rw [Piece.blanked, if_pos hp] at hq
        obtain ⟨c, _, rfl⟩ := List.mem_map.1 hq
        exact Piece.token?_ofGap c
    · rw [Piece.blanked, if_neg hp]
      cases ht : p.token? <;> simp [stepsFrom, Step.site?, ht]

/-! ## Positions -/

theorem le_pos_of_mem_stepsFrom {pos line : Nat} {pieces : List Piece} {step : Step}
    (h : step ∈ stepsFrom pos line pieces) : pos ≤ step.pos := by
  induction pieces generalizing pos line with
  | nil => cases h
  | cons p pieces ih =>
    rcases List.mem_cons.1 h with rfl | h
    · exact Nat.le_refl pos
    · have hle := ih h
      omega

/-- The first piece alone decides about the positions in it. -/
theorem inComment_stepsFrom_of_lt {pos line i : Nat} {p : Piece} (pieces : List Piece)
    (hi : i < p.length) :
    InComment (stepsFrom pos line (p :: pieces)) (pos + i) ↔ p.isComment = true := by
  constructor
  · rintro ⟨step, hs, hc, hle, _⟩
    rcases List.mem_cons.1 hs with rfl | hs
    · exact hc
    · have hpos := le_pos_of_mem_stepsFrom hs
      omega
  · intro hp
    refine ⟨⟨pos, p, line + p.lines⟩, List.mem_cons_self, hp, ?_, ?_⟩
    · exact Nat.le_add_right pos i
    · change pos + i < pos + p.length
      omega

theorem inComment_stepsFrom_of_le {pos line i : Nat} {p : Piece} (pieces : List Piece)
    (hi : p.length ≤ i) :
    InComment (stepsFrom pos line (p :: pieces)) (pos + i) ↔
      InComment (stepsFrom (pos + p.length) (line + p.lines) pieces)
        (pos + p.length + (i - p.length)) := by
  have hpos : pos + p.length + (i - p.length) = pos + i := by omega
  rw [hpos]
  constructor
  · rintro ⟨step, hs, hc, hle, hlt⟩
    rcases List.mem_cons.1 hs with rfl | hs
    · change pos + i < pos + p.length at hlt
      omega
    · exact ⟨step, hs, hc, hle, hlt⟩
  · rintro ⟨step, hs, hc, hle, hlt⟩
    exact ⟨step, List.mem_cons_of_mem _ hs, hc, hle, hlt⟩

/-- Inside the comments stand their blanks, and everywhere else stands what stood there. -/
theorem getElem?_textOf_blankedOf (pos line i : Nat) (pieces : List Piece) (rest : List Char) :
    (InComment (stepsFrom pos line pieces) (pos + i) →
      (textOf (blankedOf pieces) ++ rest)[i]? = (blank (textOf pieces ++ rest))[i]?) ∧
    (¬ InComment (stepsFrom pos line pieces) (pos + i) →
      (textOf (blankedOf pieces) ++ rest)[i]? = (textOf pieces ++ rest)[i]?) := by
  induction pieces generalizing pos line i with
  | nil =>
    refine ⟨?_, fun _ => rfl⟩
    rintro ⟨step, hs, _⟩
    cases hs
  | cons p pieces ih =>
    have hlength := p.length_textOf_blanked
    rw [blankedOf_cons, textOf_append, textOf_cons, List.append_assoc, List.append_assoc,
      blank_append]
    by_cases hi : i < p.length
    · rw [inComment_stepsFrom_of_lt pieces hi, List.getElem?_append_left (by omega),
        List.getElem?_append_left (by rw [length_blank]; exact hi), List.getElem?_append_left hi,
        p.textOf_blanked, p.withoutComment_eq]
      exact ⟨fun hp => by rw [if_pos hp], fun hp => by rw [if_neg hp]⟩
    · have hle : p.length ≤ i := Nat.le_of_not_lt hi
      have hright (text after : List Char) (ht : text.length = p.length) :
          (text ++ after)[i]? = after[i - p.length]? := by
        rw [List.getElem?_append_right (by omega), ht]
      rw [inComment_stepsFrom_of_le pieces hle, hright _ _ hlength,
        hright (blank p.text) _ (length_blank p.text), hright p.text _ rfl]
      exact ih _ _ _

namespace Reading

variable {source rest : List Char} {pieces : List Piece} {stop : Option Fault}

theorem blankComments_eq (h : Reading source pieces rest stop) :
    blankComments source = textOf (blankedOf pieces) ++ rest := by
  have hsteps : (stepsFrom 0 1 pieces).flatMap (·.piece.withoutComment) =
      pieces.flatMap Piece.withoutComment := by
    have hm := List.flatMap_map Step.piece Piece.withoutComment (stepsFrom 0 1 pieces)
    rw [map_piece_stepsFrom] at hm
    exact hm.symm
  have hdrop : source.drop (textOf pieces).length = rest := by
    rw [h.reads.source_eq, List.drop_left]
  rw [blankComments, h.ofSource_eq, textOf_blankedOf]
  simp only [hsteps, hdrop]

/-- The blanked source has the reading of the source, with gaps for the comments. -/
theorem blanked (h : Reading source pieces rest stop) :
    Reading (blankComments source) (blankedOf pieces) rest stop := by
  rw [h.blankComments_eq]
  exact ⟨h.reads.blanked, h.stops⟩

theorem line_blanked (h : Reading source pieces rest stop) :
    (Run.ofSource (blankComments source)).line + (Run.ofSource source).lineComments =
      (Run.ofSource source).line := by
  have hlines := linesOf_blankedOf h.reads.wellFormed
  rw [h.lineComments_eq, h.blanked.ofSource_eq, h.ofSource_eq]
  change 1 + linesOf (blankedOf pieces) + stopLines stop rest + _ =
    1 + linesOf pieces + stopLines stop rest
  omega

theorem pos_blanked (h : Reading source pieces rest stop) :
    (Run.ofSource (blankComments source)).pos = (Run.ofSource source).pos := by
  rw [h.blanked.ofSource_eq, h.ofSource_eq]
  exact length_textOf_blankedOf pieces

theorem getElem?_blankComments (h : Reading source pieces rest stop) (i : Nat) :
    (InComment (Run.ofSource source).steps i → (blankComments source)[i]? = (blank source)[i]?) ∧
    (¬ InComment (Run.ofSource source).steps i → (blankComments source)[i]? = source[i]?) := by
  have hi := getElem?_textOf_blankedOf 0 1 i pieces rest
  rw [← h.blankComments_eq, ← h.reads.source_eq, Nat.zero_add] at hi
  rw [h.ofSource_eq]
  exact hi

end Reading

theorem length_blankComments (source : List Char) :
    (blankComments source).length = source.length := by
  obtain ⟨pieces, rest, stop, h⟩ := exists_reading source
  have hsource := congrArg List.length h.reads.source_eq
  rw [h.blankComments_eq, List.length_append, length_textOf_blankedOf, hsource,
    List.length_append]

theorem blankComments_blankComments (source : List Char) :
    blankComments (blankComments source) = blankComments source := by
  obtain ⟨pieces, rest, stop, h⟩ := exists_reading source
  have htwice : blankedOf (blankedOf pieces) = blankedOf pieces :=
    blankedOf_of_no_comment fun _ hp => isComment_of_mem_blankedOf hp
  rw [h.blanked.blankComments_eq, htwice, h.blankComments_eq]

/-- A scan sees the same tokens at the same places, and stops at the same fault or at the
end, whether the comments of a source are read or blanked. Only the lines differ, by the
line comments. Blanking changes the text inside the comments alone, and once is enough. -/
theorem scan_blankComments (source : List Char) :
    ((∀ i : Nat, (InComment (Run.ofSource source).steps i →
        (blankComments source)[i]? = (blank source)[i]?) ∧
      (¬ InComment (Run.ofSource source).steps i → (blankComments source)[i]? = source[i]?)) ∧
      (blankComments source).length = source.length ∧
      ∀ i : Nat, (blankComments source)[i]? = some '\n' ↔ source[i]? = some '\n') ∧
    (∀ step ∈ (Run.ofSource (blankComments source)).steps, step.piece.isComment = false) ∧
    (Run.ofSource (blankComments source)).steps.filterMap Step.site? =
      (Run.ofSource source).steps.filterMap Step.site? ∧
    (∀ tokens, scan source = .ok tokens →
      scan (blankComments source) = .ok tokens ∧
      (Run.ofSource (blankComments source)).line + (Run.ofSource source).lineComments =
        (Run.ofSource source).line) ∧
    (∀ fault line, scan source = .error ⟨fault, line⟩ →
      (Run.ofSource (blankComments source)).pos = (Run.ofSource source).pos ∧
      ∃ line', scan (blankComments source) = .error ⟨fault, line'⟩ ∧
        line' + (Run.ofSource source).lineComments = line) ∧
    blankComments (blankComments source) = blankComments source := by
  obtain ⟨pieces, rest, stop, h⟩ := exists_reading source
  have hchars := h.getElem?_blankComments
  refine ⟨⟨hchars, length_blankComments source, fun i => ?_⟩, ?_, ?_, ?_, ?_,
    blankComments_blankComments source⟩
  · by_cases hi : InComment (Run.ofSource source).steps i
    · rw [(hchars i).1 hi, getElem?_blank_eq_newline_iff]
    · rw [(hchars i).2 hi]
  · intro step hs
    have hp : step.piece ∈ (stepsFrom 0 1 (blankedOf pieces)).map Step.piece := by
      rw [h.blanked.ofSource_eq] at hs
      exact List.mem_map_of_mem hs
    rw [map_piece_stepsFrom] at hp
    exact isComment_of_mem_blankedOf hp
  · rw [h.blanked.ofSource_eq, h.ofSource_eq]
    exact filterMap_site?_blankedOf 0 1 1 pieces
  · intro tokens ht
    obtain ⟨pieces', hr, rfl⟩ := reads_of_scan_eq_ok ht
    have hrun : Reading source pieces' [] none := ⟨hr, rfl⟩
    refine ⟨?_, h.line_blanked⟩
    rw [hrun.blanked.reads.scan_eq_ok, tokensOf_blankedOf]
  · intro fault line he
    obtain ⟨pieces', rest', hr, hm, rfl⟩ := reads_of_scan_eq_error he
    have hrun : Reading source pieces' rest' (some fault) := ⟨hr, hm⟩
    have hlines := linesOf_blankedOf hr.wellFormed
    refine ⟨h.pos_blanked, _, hrun.blanked.reads.scan_eq_error hm, ?_⟩
    rw [hrun.lineComments_eq]
    omega

/-- The comment keeps the minus apart from the digit, and so do its blanks. The quote in the
line comment opens no string, neither before nor after. -/
theorem scan_minus_comment_number :
    scan ['-', '/', '*', '*', '/', '5', '/', '/', '"', '\n'] =
      .ok [⟨.operator, ['-']⟩, ⟨.intConstant, ['5']⟩] ∧
    scan (blankComments ['-', '/', '*', '*', '/', '5', '/', '/', '"', '\n']) =
      .ok [⟨.operator, ['-']⟩, ⟨.intConstant, ['5']⟩] ∧
    scan ['-', '/', '*', '*', '/', '5', '/', '/', '"', '\n', '"', 'y'] = .error ⟨.openString, 3⟩ ∧
    scan (blankComments ['-', '/', '*', '*', '/', '5', '/', '/', '"', '\n', '"', 'y']) =
      .error ⟨.openString, 2⟩ ∧
    (blankComments ['-', '/', '*', '*', '/', '5', '/', '/', '"', '\n', '"', 'y'])[8]? =
      some ' ' := by
  have hread (after : List Char) :
      Reads (['-', '/', '*', '*', '/', '5', '/', '/', '"', '\n'] ++ after)
        [.operator .minus, .blockComment [], .number false ['5'], .lineComment ['"'], .newline]
        after := by
    refine .piece ?_ ?_ rfl (.piece ?_ ?_ rfl (.piece ?_ ?_ rfl (.piece ?_ ?_ rfl
      (.piece trivial (fun _ _ => rfl) rfl (.stop _)))))
    all_goals simp [Piece.WellFormed, Piece.EndsBefore, Piece.extendsBy, maxDigits]
  have hm : Malformed .openString ['"', 'y'] := .string (by simp)
  have hrun : Reading _ _ _ (some .openString) := ⟨hread ['"', 'y'], hm⟩
  obtain ⟨_, _, _, hok, _⟩ :=
    scan_blankComments ['-', '/', '*', '*', '/', '5', '/', '/', '"', '\n']
  obtain ⟨⟨hchars, _⟩, _, _, _, herror, _⟩ :=
    scan_blankComments ['-', '/', '*', '*', '/', '5', '/', '/', '"', '\n', '"', 'y']
  have hs := (hread []).scan_eq_ok
  have he := (hread ['"', 'y']).scan_eq_error hm
  obtain ⟨_, line, hline, hsum⟩ := herror _ _ he
  refine ⟨hs, (hok _ hs).1, he, ?_, ?_⟩
  · have hone :
        (Run.ofSource ['-', '/', '*', '*', '/', '5', '/', '/', '"', '\n', '"', 'y']).lineComments =
          1 := hrun.lineComments_eq
    rw [hone] at hsum
    have htwo : line = 2 := Nat.succ_inj.1 hsum
    rwa [htwo] at hline
  · refine (hchars 8).1 ⟨⟨6, .lineComment ['"'], 2⟩, ?_, rfl, by decide, by decide⟩
    have hsteps :
        (Run.ofSource ['-', '/', '*', '*', '/', '5', '/', '/', '"', '\n', '"', 'y']).steps =
          stepsFrom 0 1 [.operator .minus, .blockComment [], .number false ['5'],
            .lineComment ['"'], .newline] := congrArg Run.steps hrun.ofSource_eq
    rw [hsteps]
    decide

end Ceng
