import Ceng.Proofs.Scan.Reading

/-!
# Text without significant characters

A gap is read one character at a time, whatever follows it, and gives no token. The
reading of a text after a gap is the reading of the text, so gaps can be taken off
the front of a source and put there. Comments are not gaps.
-/
namespace Ceng

/-- A text that no lexeme or comment can begin in. -/
def IsGap (text : List Char) : Prop := ∀ c ∈ text, isSignificant c = false

theorem isGap_nil : IsGap [] := by simp [IsGap]

theorem IsGap.not_mem {gap : List Char} (h : IsGap gap) {c : Char} (hc : isSignificant c = true) :
    c ∉ gap := by
  intro hm
  rw [h c hm] at hc
  cases hc

theorem count_newline_eq_zero {p : Char → Bool} {text : List Char} (ht : ∀ c ∈ text, p c = true)
    (hn : p '\n' = false) : text.count '\n' = 0 := by
  refine List.count_eq_zero.2 fun hm => ?_
  rw [ht '\n' hm] at hn
  cases hn

theorem isSignificant_eq_false_of_isSkippable {c : Char} (h : isSkippable c = true) :
    isSignificant c = false := by
  simp only [isSkippable, Bool.and_eq_true, Bool.not_eq_true'] at h
  exact h.1

theorem isGap_of_isSkippable {text : List Char} (h : ∀ c ∈ text, isSkippable c = true) :
    IsGap text := fun c hc => isSignificant_eq_false_of_isSkippable (h c hc)

theorem isSkippable_of_ne_newline {c : Char} (h : isSignificant c = false) (hn : c ≠ '\n') :
    isSkippable c = true := by
  simp [isSkippable, h, hn]

namespace Piece

/-- The piece that a character of a gap is read as. -/
def ofGap (c : Char) : Piece := if c = '\n' then .newline else .skipped c

@[simp] theorem text_ofGap (c : Char) : (ofGap c).text = [c] := by
  by_cases hc : c = '\n' <;> simp [ofGap, hc, text]

@[simp] theorem token?_ofGap (c : Char) : (ofGap c).token? = none := by
  by_cases hc : c = '\n' <;> simp [ofGap, hc, token?]

theorem lines_ofGap (c : Char) : (ofGap c).lines = [c].count '\n' := by
  by_cases hc : c = '\n' <;> simp [ofGap, hc, lines]

theorem wellFormed_ofGap {c : Char} (h : isSignificant c = false) : (ofGap c).WellFormed := by
  by_cases hc : c = '\n'
  · rw [ofGap, if_pos hc]
    trivial
  · rw [ofGap, if_neg hc]
    exact isSkippable_of_ne_newline h hc

theorem endsBefore_ofGap (c : Char) (after : List Char) : (ofGap c).EndsBefore after := by
  intro d _
  by_cases hc : c = '\n' <;> simp [ofGap, hc, extendsBy]

/-- Only a line comment takes in characters without meaning. -/
theorem isSignificant_of_extendsBy {p : Piece} {c : Char} (h : p.extendsBy c = true)
    (hp : ∀ body, p ≠ .lineComment body) : isSignificant c = true := by
  have hchar (d : Char) (hd : isSignificant d = true) (hc : (c == d) = true) :
      isSignificant c = true := by
    rw [eq_of_beq hc]
    exact hd
  have hdigit (hc : c.isDigit = true) : isSignificant c = true :=
    isSignificant_of_isWordChar (isWordChar_of_isDigit hc)
  cases p with
  | word text => exact isSignificant_of_isWordChar h
  | number negative digits => exact hdigit h
  | operator op =>
    cases op with
    | plus => exact hchar '+' (by decide) h
    | minus =>
      rcases Bool.or_eq_true_iff.1 h with hc | hc
      · exact hchar '-' (by decide) hc
      · exact hdigit hc
    | divide =>
      rcases Bool.or_eq_true_iff.1 h with hc | hc
      · exact hchar '*' (by decide) hc
      · exact hchar '/' (by decide) hc
    | assign => exact hchar '=' (by decide) h
    | less => exact hchar '=' (by decide) h
    | greater => exact hchar '=' (by decide) h
    | _ => cases h
  | lineComment body => exact absurd rfl (hp body)
  | _ => cases h

end Piece

/-! ## Gaps in a source -/

def piecesOfGap (gap : List Char) : List Piece := gap.map Piece.ofGap

@[simp] theorem tokensOf_piecesOfGap (gap : List Char) : tokensOf (piecesOfGap gap) = [] := by
  simp [tokensOf, piecesOfGap]

theorem linesOf_piecesOfGap (gap : List Char) : linesOf (piecesOfGap gap) = gap.count '\n' := by
  induction gap with
  | nil => rfl
  | cons c gap ih =>
    change linesOf (Piece.ofGap c :: piecesOfGap gap) = _
    rw [linesOf_cons, ih, Piece.lines_ofGap, ← List.count_append, List.singleton_append]

theorem Reads.gap {gap source rest : List Char} {pieces : List Piece} (hg : IsGap gap)
    (h : Reads source pieces rest) :
    Reads (gap ++ source) (piecesOfGap gap ++ pieces) rest := by
  induction gap with
  | nil => exact h
  | cons c gap ih =>
    have hc : isSignificant c = false := hg c (by simp)
    have hrest := ih fun d hd => hg d (List.mem_cons_of_mem c hd)
    exact .piece (Piece.wellFormed_ofGap hc) (Piece.endsBefore_ofGap c _) (by simp) hrest

/-- The reading of a text after a gap begins with the gap and goes on as the reading of
the text. -/
theorem Reading.of_gap {gap source rest : List Char} {pieces : List Piece} {stop : Option Fault}
    (hg : IsGap gap) (h : Reading (gap ++ source) pieces rest stop) :
    ∃ pieces', pieces = piecesOfGap gap ++ pieces' ∧ Reading source pieces' rest stop := by
  obtain ⟨pieces', rest', stop', hsource⟩ := exists_reading source
  have hboth : Reading (gap ++ source) (piecesOfGap gap ++ pieces') rest' stop' :=
    ⟨hsource.reads.gap hg, hsource.stops⟩
  obtain ⟨rfl, rfl, rfl⟩ := h.unique hboth
  exact ⟨pieces', rfl, hsource⟩

end Ceng
