import Ceng.Grammar.Reencoding
import Ceng.Proofs.Scan.Gaps
import Ceng.Proofs.Text.Utf8

/-!
# Scanning a re-encoded source

A re-encoded source has a reading of the same shape: the significant characters stand
in the same order, and what stands for the other characters is a gap wherever they
were one. Only a line comment ends in another place, since it takes in what comes
before the newline. Positions are not compared, as they differ.
-/
namespace Ceng

/-- The token with another text if it is a string. -/
def Token.mapString (g : List Char → List Char) (t : Token) : Token :=
  if t.kind = .stringConstant then { t with text := g t.text } else t

theorem Token.mapString_of_kind_ne {t : Token} (h : t.kind ≠ .stringConstant)
    (g : List Char → List Char) : t.mapString g = t := if_neg h

/-- What `g` does to a source is seen in its strings only: the other tokens, the kinds, the
error with its line and the count of lines are those of the source. -/
def SeenInStringsOnly (g : List Char → List Char) : Prop :=
  ∀ source : List Char,
    scan (g source) = (scan source).map (List.map (Token.mapString g)) ∧
      (Run.ofSource (g source)).line = (Run.ofSource source).line

/-- Every line ends with a carriage return and a newline. -/
def withCarriageReturns (text : List Char) : List Char :=
  text.flatMap fun c => if c = '\n' then ['\r', '\n'] else [c]

namespace Reencoding

variable (f : Reencoding)

@[simp] theorem apply_cons (c : Char) (source : List Char) :
    f.apply (c :: source) = f.spell c ++ f.apply source := rfl

@[simp] theorem apply_append (source more : List Char) :
    f.apply (source ++ more) = f.apply source ++ f.apply more := List.flatMap_append

/-! ## Characters -/

/-- A character without meaning is spelled as a gap with the same newlines. -/
theorem spell_of_insignificant {c : Char} (h : isSignificant c = false) :
    f.spell c ≠ [] ∧ IsGap (f.spell c) ∧ (f.spell c).count '\n' = [c].count '\n' := by
  by_cases hc : c = '\n'
  · obtain ⟨before, after, hs, hb, ha⟩ := f.spell_newline
    rw [hc, hs]
    refine ⟨by simp, ?_, ?_⟩
    · intro d hd
      rcases List.mem_append.1 hd with hd | hd
      · exact isGap_of_isSkippable hb d hd
      · rcases List.mem_cons.1 hd with rfl | hd
        · rfl
        · exact isGap_of_isSkippable ha d hd
    · rw [List.count_append, List.count_cons_self, count_newline_eq_zero hb (by decide),
        count_newline_eq_zero ha (by decide)]
      rfl
  · obtain ⟨hne, hs⟩ := f.spell_skippable c (isSkippable_of_ne_newline h hc)
    refine ⟨hne, isGap_of_isSkippable hs, ?_⟩
    rw [count_newline_eq_zero hs (by decide)]
    simp [hc]

theorem apply_of_significant {text : List Char} (h : ∀ c ∈ text, isSignificant c = true) :
    f.apply text = text := by
  induction text with
  | nil => rfl
  | cons c text ih =>
    rw [apply_cons, f.spell_significant c (h c (by simp)),
      ih fun d hd => h d (List.mem_cons_of_mem c hd)]
    rfl

theorem count_newline_apply (source : List Char) :
    (f.apply source).count '\n' = source.count '\n' := by
  induction source with
  | nil => rfl
  | cons c source ih =>
    have hc : (f.spell c).count '\n' = [c].count '\n' := by
      cases hs : isSignificant c with
      | true => rw [f.spell_significant c hs]
      | false => exact (f.spell_of_insignificant hs).2.2
    rw [apply_cons, List.count_append, hc, ih, ← List.count_append, List.singleton_append]

theorem mem_of_mem_apply {source : List Char} {c : Char} (hc : isSignificant c = true)
    (h : c ∈ f.apply source) : c ∈ source := by
  obtain ⟨d, hd, hm⟩ := List.mem_flatMap.1 h
  cases hs : isSignificant d with
  | true =>
    rw [f.spell_significant d hs, List.mem_singleton] at hm
    rwa [hm]
  | false =>
    exact absurd hm ((f.spell_of_insignificant hs).2.1.not_mem hc)

/-- A source begins with a significant character exactly if its re-encoding does, and it
is the same one. -/
theorem head?_apply {source : List Char} {c : Char} (hc : isSignificant c = true)
    (h : c ∈ (f.apply source).head?) : c ∈ source.head? := by
  cases source with
  | nil => cases h
  | cons d source =>
    rw [apply_cons] at h
    cases hs : isSignificant d with
    | true =>
      rw [f.spell_significant d hs] at h
      exact h
    | false =>
      obtain ⟨hne, hgap, _⟩ := f.spell_of_insignificant hs
      have hm : c ∈ f.spell d := by
        cases hspell : f.spell d with
        | nil => exact absurd hspell hne
        | cons e text =>
          rw [hspell] at h
          simpa using .inl (Option.some.inj h).symm
      exact absurd hm (hgap.not_mem hc)

/-- A class of significant characters comes next after the re-encoding only if it has
come next before. -/
theorem head?_apply_eq_false {p : Char → Bool} {source : List Char}
    (hp : ∀ c, p c = true → isSignificant c = true) (h : ∀ c ∈ source.head?, p c = false) :
    ∀ c ∈ (f.apply source).head?, p c = false := by
  intro c hc
  rw [Bool.eq_false_iff]
  intro hpc
  have hsource := h c (f.head?_apply (hp c hpc) hc)
  rw [hpc] at hsource
  cases hsource

theorem star_slash_infix_of_gap {gap text : List Char} (hg : IsGap gap)
    (h : ['*', '/'] <:+: gap ++ text) : ['*', '/'] <:+: text := by
  induction gap with
  | nil => exact h
  | cons c gap ih =>
    rcases List.infix_cons_iff.1 h with hp | hi
    · obtain ⟨rest, hr⟩ := hp
      obtain ⟨rfl, _⟩ := List.cons.inj hr
      exact absurd List.mem_cons_self (hg.not_mem (by decide))
    · exact ih (fun d hd => hg d (List.mem_cons_of_mem c hd)) hi

/-- A re-encoding brings no star and slash together. -/
theorem star_slash_infix_of_apply {source : List Char} (h : ['*', '/'] <:+: f.apply source) :
    ['*', '/'] <:+: source := by
  induction source with
  | nil => exact h
  | cons c source ih =>
    rw [apply_cons] at h
    cases hs : isSignificant c with
    | true =>
      rw [f.spell_significant c hs, List.singleton_append] at h
      rcases List.infix_cons_iff.1 h with hp | hi
      · obtain ⟨rest, hr⟩ := hp
        obtain ⟨rfl, htail⟩ := List.cons.inj hr
        have hslash : '/' ∈ source.head? := f.head?_apply (by decide) (by rw [← htail]; rfl)
        cases source with
        | nil => cases hslash
        | cons d source =>
          cases hslash
          exact ⟨[], source, rfl⟩
      · exact List.infix_cons_iff.2 (.inr (ih hi))
    | false =>
      have hi := star_slash_infix_of_gap (f.spell_of_insignificant hs).2.1 h
      exact List.infix_cons_iff.2 (.inr (ih hi))

/-! ## Pieces -/

/-- Only a line comment takes in more after the re-encoding. -/
theorem endsBefore_apply {p : Piece} {after : List Char} (h : p.EndsBefore after)
    (hp : ∀ body, p ≠ .lineComment body) : p.EndsBefore (f.apply after) :=
  f.head?_apply_eq_false (fun _ hc => Piece.isSignificant_of_extendsBy hc hp) h

theorem malformed_apply {fault : Fault} {source : List Char} (h : Malformed fault source) :
    Malformed fault (f.apply source) := by
  cases h with
  | @word text rest hh ht hl hr =>
    have htext := f.apply_of_significant fun c hc => isSignificant_of_isWordChar (ht c hc)
    rw [apply_append, htext]
    exact .word hh ht hl (f.head?_apply_eq_false (fun _ => isSignificant_of_isWordChar) hr)
  | @number negative digits rest hd hl hr =>
    have hsig (c : Char) (hc : c.isDigit = true) : isSignificant c = true :=
      isSignificant_of_isWordChar (isWordChar_of_isDigit hc)
    have hsign : f.apply (if negative then ['-'] else []) = if negative then ['-'] else [] := by
      cases negative
      · rfl
      · exact f.apply_of_significant (by simp; decide)
    have hdigits := f.apply_of_significant fun c hc => hsig c (hd c hc)
    rw [apply_append, apply_append, hsign, hdigits]
    exact .number hd hl (f.head?_apply_eq_false hsig hr)
  | @string rest hq =>
    rw [apply_cons, f.spell_significant '"' (by decide), List.singleton_append]
    exact .string fun hm => hq (f.mem_of_mem_apply (by decide) hm)
  | @comment rest hc =>
    rw [apply_cons, apply_cons, f.spell_significant '/' (by decide),
      f.spell_significant '*' (by decide), List.singleton_append, List.singleton_append]
    exact .comment fun hi => hc (f.star_slash_infix_of_apply hi)

theorem stops_apply {stop : Option Fault} {rest : List Char} (h : Stops stop rest) :
    Stops stop (f.apply rest) ∧ stopLines stop (f.apply rest) = stopLines stop rest := by
  cases stop with
  | none =>
    obtain rfl : rest = [] := h
    exact ⟨rfl, rfl⟩
  | some fault =>
    refine ⟨f.malformed_apply h, ?_⟩
    cases fault with
    | openString => exact f.count_newline_apply rest
    | openComment => exact f.count_newline_apply rest
    | _ => rfl

/-- The pieces that a piece other than a line comment becomes. -/
def respell : Piece → List Piece
  | .string body => [.string (f.apply body)]
  | .blockComment body => [.blockComment (f.apply body)]
  | .newline => piecesOfGap (f.spell '\n')
  | .skipped c => piecesOfGap (f.spell c)
  | p => [p]

theorem reads_respell {p : Piece} {after : List Char} (hw : p.WellFormed)
    (he : p.EndsBefore after) (hp : ∀ body, p ≠ .lineComment body) :
    Reads (f.apply (p.text ++ after)) (f.respell p) (f.apply after) := by
  have hend := f.endsBefore_apply he hp
  -- A piece of significant characters is read as it is.
  have hsame (hs : ∀ c ∈ p.text, isSignificant c = true) :
      Reads (f.apply (p.text ++ after)) [p] (f.apply after) := by
    rw [apply_append, f.apply_of_significant hs]
    exact .piece hw hend rfl (.stop _)
  have hgap (gap : List Char) (hg : IsGap gap) :
      Reads (gap ++ f.apply after) (piecesOfGap gap) (f.apply after) := by
    have hr := (Reads.stop (f.apply after)).gap hg
    rwa [List.append_nil] at hr
  cases p with
  | word text => exact hsame fun c hc => isSignificant_of_isWordChar (hw.2.1 c hc)
  | number negative digits =>
    refine hsame fun c hc => ?_
    rcases List.mem_append.1 hc with hc | hc
    · cases negative with
      | false => cases hc
      | true => rw [List.mem_singleton.1 hc]; decide
    · exact isSignificant_of_isWordChar (isWordChar_of_isDigit (hw.2.1 c hc))
  | operator op => exact hsame (List.all_eq_true.1 (by cases op <;> decide))
  | bracket b => exact hsame (List.all_eq_true.1 (by cases b <;> decide))
  | statementEnd => exact hsame (List.all_eq_true.1 (by decide))
  | string body =>
    have hbody : (Piece.string (f.apply body)).WellFormed := fun hm =>
      hw (f.mem_of_mem_apply (by decide) hm)
    refine .piece hbody (fun _ _ => rfl) ?_ (.stop _)
    simp [Piece.text, f.spell_significant '"' (by decide)]
  | blockComment body =>
    have hbody : (Piece.blockComment (f.apply body)).WellFormed := fun hi =>
      hw (f.star_slash_infix_of_apply hi)
    refine .piece hbody (fun _ _ => rfl) ?_ (.stop _)
    simp [Piece.text, f.spell_significant '/' (by decide), f.spell_significant '*' (by decide)]
  | lineComment body => exact absurd rfl (hp body)
  | newline => exact hgap _ (f.spell_of_insignificant (by decide)).2.1
  | skipped c =>
    have hc := isSignificant_eq_false_of_isSkippable (show isSkippable c = true from hw)
    exact hgap _ (f.spell_of_insignificant hc).2.1

theorem tokensOf_respell (p : Piece) :
    tokensOf (f.respell p) = (tokensOf [p]).map (Token.mapString f.apply) := by
  cases p with
  | word text =>
    have hkind : (if text ∈ keywords then Token.Kind.keyword else .identifier) ≠
        .stringConstant := by
      by_cases hk : text ∈ keywords <;> simp [hk]
    exact congrArg (fun t => [t]) (Token.mapString_of_kind_ne hkind f.apply).symm
  | bracket b => cases b <;> rfl
  | newline => exact tokensOf_piecesOfGap _
  | skipped c => exact tokensOf_piecesOfGap _
  | _ => rfl

theorem linesOf_respell {p : Piece} (hw : p.WellFormed) : linesOf (f.respell p) = p.lines := by
  cases p with
  | string body => exact f.count_newline_apply body
  | blockComment body => exact f.count_newline_apply body
  | newline =>
    change linesOf (piecesOfGap _) = _
    rw [linesOf_piecesOfGap, (f.spell_of_insignificant (by decide)).2.2]
    rfl
  | skipped c =>
    have hs : isSkippable c = true := hw
    have hc : c ≠ '\n' := by rintro rfl; exact absurd hs (by decide)
    change linesOf (piecesOfGap _) = _
    rw [linesOf_piecesOfGap,
      (f.spell_of_insignificant (isSignificant_eq_false_of_isSkippable hs)).2.2]
    simp [Piece.lines, hc]
  | _ => rfl

/-- A line comment takes in the characters that now stand before its newline. What is
read after it is the reading of the rest without them. -/
theorem reading_lineComment {body after rest : List Char} {pieces : List Piece}
    {stop : Option Fault} (hw : (Piece.lineComment body).WellFormed)
    (he : (Piece.lineComment body).EndsBefore after)
    (h : Reading (f.apply after) pieces rest stop) :
    ∃ pieces', Reading (f.apply ((Piece.lineComment body).text ++ after)) pieces' rest stop ∧
      tokensOf pieces' = tokensOf pieces ∧ linesOf pieces' = 1 + linesOf pieces := by
  have hbody : (f.apply body).count '\n' = 0 := by
    rw [f.count_newline_apply]
    exact List.count_eq_zero.2 hw
  have htext : f.apply (Piece.lineComment body).text = (Piece.lineComment (f.apply body)).text := by
    simp [Piece.text, f.spell_significant '/' (by decide)]
  cases after with
  | nil =>
    refine ⟨.lineComment (f.apply body) :: pieces, ⟨?_, h.stops⟩, rfl, rfl⟩
    rw [List.append_nil, htext]
    exact .piece (List.count_eq_zero.1 hbody) (Piece.endsBefore_nil _) (List.append_nil _).symm h.reads
  | cons c after =>
    have hc : c = '\n' := by simpa [Piece.extendsBy] using Piece.endsBefore_cons.1 he
    obtain ⟨before, behind, hs, hb, _⟩ := f.spell_newline
    have hbefore : before.count '\n' = 0 := count_newline_eq_zero hb (by decide)
    rw [hc, apply_cons, hs, List.append_assoc] at h
    obtain ⟨pieces, rfl, hr⟩ := h.of_gap (isGap_of_isSkippable hb)
    refine ⟨.lineComment (f.apply body ++ before) :: pieces, ⟨?_, hr.stops⟩, ?_, ?_⟩
    · refine .piece (List.count_eq_zero.1 ?_) ?_ ?_ hr.reads
      · rw [List.count_append, hbody, hbefore]
      · exact Piece.endsBefore_cons.2 rfl
      · rw [apply_append, htext, hc, apply_cons, hs]
        simp [Piece.text]
    · rw [tokensOf_append, tokensOf_piecesOfGap, List.nil_append]
      rfl
    · rw [linesOf_append, linesOf_piecesOfGap, hbefore, Nat.zero_add]
      rfl

/-! ## Sources -/

/-- The reading of a re-encoded source: it stops at the same fault, gives the same tokens
with the strings re-encoded, and counts the same lines. -/
theorem exists_reading_apply {source rest : List Char} {pieces : List Piece} {stop : Option Fault}
    (h : Reads source pieces rest) (hs : Stops stop rest) :
    ∃ pieces', Reading (f.apply source) pieces' (f.apply rest) stop ∧
      tokensOf pieces' = (tokensOf pieces).map (Token.mapString f.apply) ∧
      linesOf pieces' = linesOf pieces := by
  induction h with
  | stop rest => exact ⟨[], ⟨.stop _, (f.stops_apply hs).1⟩, rfl, rfl⟩
  | @piece p pieces source after rest hw he hsource _ ih =>
    obtain ⟨pieces', hr, ht, hl⟩ := ih hs
    have hsplit : tokensOf (p :: pieces) = tokensOf [p] ++ tokensOf pieces :=
      tokensOf_append [p] pieces
    rw [hsource, hsplit, List.map_append, linesOf_cons, ← ht, ← hl]
    by_cases hp : ∃ body, p = .lineComment body
    · obtain ⟨body, rfl⟩ := hp
      exact f.reading_lineComment hw he hr
    · have hp : ∀ body, p ≠ .lineComment body := fun body hb => hp ⟨body, hb⟩
      refine ⟨f.respell p ++ pieces', ⟨?_, hr.stops⟩, ?_, ?_⟩
      · exact reads_append_iff.2 ⟨_, f.reads_respell hw he hp, hr.reads⟩
      · rw [tokensOf_append, f.tokensOf_respell]
      · rw [linesOf_append, f.linesOf_respell hw]

theorem seenInStringsOnly_apply : SeenInStringsOnly f.apply := by
  intro source
  obtain ⟨pieces, rest, stop, h⟩ := exists_reading source
  obtain ⟨pieces', h', ht, hl⟩ := f.exists_reading_apply h.reads h.stops
  have hstop := (f.stops_apply h.stops).2
  constructor
  · cases stop with
    | none =>
      obtain rfl : rest = [] := h.stops
      rw [h'.reads.scan_eq_ok, h.reads.scan_eq_ok, ht]
      rfl
    | some fault =>
      have hlines : fault.lines (f.apply rest) = fault.lines rest := hstop
      rw [h'.reads.scan_eq_error h'.stops, h.reads.scan_eq_error h.stops, hl, hlines]
      rfl
  · rw [h'.ofSource_eq, h.ofSource_eq]
    simp only [hl, hstop]

/-! ## UTF-8 and line ends -/

theorem toNat_lt_of_isWordChar {c : Char} (h : isWordChar c = true) : c.toNat < 128 := by
  have hle {last : Char} (hlast : last.toNat < 128) (hc : c.val ≤ last.val) : c.toNat < 128 :=
    Nat.lt_of_le_of_lt hc hlast
  rcases Bool.or_eq_true_iff.1 h with h | hunderscore
  · rcases Bool.or_eq_true_iff.1 h with h | hdigit
    · rcases Bool.or_eq_true_iff.1 h with hupper | hlower
      · exact @hle 'Z' (by decide) (of_decide_eq_true hupper).2
      · exact @hle 'z' (by decide) (of_decide_eq_true (Bool.and_eq_true_iff.1 hlower).2)
    · exact @hle '9' (by decide) (of_decide_eq_true (Bool.and_eq_true_iff.1 hdigit).2)
  · rw [eq_of_beq hunderscore]
    decide

theorem toNat_lt_of_isSignificant {c : Char} (h : isSignificant c = true) : c.toNat < 128 := by
  rcases Bool.or_eq_true_iff.1 h with hw | hm
  · exact toNat_lt_of_isWordChar hw
  · have hall : [';', '-', '*', '/', '+', '=', '<', '>', '(', ')', '\x7b', '\x7d', '"'].all
        (fun d => d.toNat < 128) = true := by decide
    exact of_decide_eq_true (List.all_eq_true.1 hall c (List.contains_iff_mem.1 hm))

/-- Every character is spelled by its bytes in UTF-8, read as Latin-1. -/
def utf8 : Reencoding where
  spell c := Latin1.decode (String.utf8EncodeChar c)
  spell_significant c h := Utf8.decode_encodeChar (toNat_lt_of_isSignificant h)
  spell_skippable c h := by
    have hne : Latin1.decode (String.utf8EncodeChar c) ≠ [] := fun hd =>
      Utf8.encodeChar_ne_nil c (List.map_eq_nil_iff.1 hd)
    refine ⟨hne, fun d hd => ?_⟩
    rcases Nat.lt_or_ge c.toNat 128 with hc | hc
    · rw [Utf8.decode_encodeChar hc, List.mem_singleton] at hd
      rwa [hd]
    · obtain ⟨b, hb, rfl⟩ := List.mem_map.1 hd
      have hbyte : 128 ≤ (Char.ofUInt8 b).toNat := Utf8.le_of_mem_encodeChar hc hb
      have hs : isSignificant (Char.ofUInt8 b) = false := by
        rw [Bool.eq_false_iff]
        intro hs
        have hlt := toNat_lt_of_isSignificant hs
        omega
      refine isSkippable_of_ne_newline hs fun hn => ?_
      rw [hn] at hbyte
      exact absurd hbyte (by decide)
  spell_newline := ⟨[], [], by decide, by simp, by simp⟩

theorem utf8_apply (text : List Char) : utf8.apply text = Latin1.decode (Utf8.encode text) := by
  rw [Utf8.encode_eq_flatMap]
  exact (List.map_flatMap ..).symm

def carriageReturns : Reencoding where
  spell c := if c = '\n' then ['\r', '\n'] else [c]
  spell_significant c h := by
    have hc : c ≠ '\n' := by rintro rfl; exact absurd h (by decide)
    rw [if_neg hc]
  spell_skippable c h := by
    have hc : c ≠ '\n' := by rintro rfl; exact absurd h (by decide)
    rw [if_neg hc]
    simpa using h
  spell_newline := ⟨['\r'], [], rfl, List.all_eq_true.1 (by decide), by simp⟩

end Reencoding

/-- A re-encoding of a source is seen in its strings only. Two such re-encodings put the
UTF-8 bytes in place of the characters, and carriage returns before the newlines. -/
theorem scan_reencoded :
    (∀ f : Reencoding, SeenInStringsOnly f.apply) ∧
      SeenInStringsOnly (fun text => Latin1.decode (Utf8.encode text)) ∧
      SeenInStringsOnly withCarriageReturns := by
  refine ⟨Reencoding.seenInStringsOnly_apply, ?_, ?_⟩
  · have hutf8 : (fun text => Latin1.decode (Utf8.encode text)) = Reencoding.utf8.apply :=
      funext fun text => (Reencoding.utf8_apply text).symm
    rw [hutf8]
    exact Reencoding.utf8.seenInStringsOnly_apply
  · exact Reencoding.carriageReturns.seenInStringsOnly_apply

end Ceng
