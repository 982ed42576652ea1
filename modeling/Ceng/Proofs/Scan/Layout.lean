import Ceng.Proofs.Token.Spelling
import Mathlib.Data.List.Chain

/-!
# Printing tokens and scanning them again

Spellings of well-formed tokens, written with gaps between them, scan to the same
tokens if and only if every two neighbours that fuse have a gap between them. Only
direct neighbours matter. In a layout with comments the condition is sufficient, but
not necessary: text after a swallowed token may happen to spell it again.
-/
namespace Ceng

/-! ## Text between tokens -/

/-- A text that is read without giving a token, whatever follows it. -/
def IsFiller (text : List Char) : Prop :=
  ∃ pieces, tokensOf pieces = [] ∧ ∀ after, Reads (text ++ after) pieces after

theorem IsGap.isFiller {gap : List Char} (h : IsGap gap) : IsFiller gap := by
  refine ⟨piecesOfGap gap, tokensOf_piecesOfGap gap, fun after => ?_⟩
  have hr := (Reads.stop after).gap h
  rwa [List.append_nil] at hr

theorem isFiller_blockComment {body : List Char} (h : (Piece.blockComment body).WellFormed) :
    IsFiller (Piece.blockComment body).text :=
  ⟨[.blockComment body], rfl, fun after => .piece h (fun _ _ => rfl) rfl (.stop after)⟩

theorem isFiller_lineComment {body : List Char} (h : (Piece.lineComment body).WellFormed) :
    IsFiller ((Piece.lineComment body).text ++ ['\n']) := by
  refine ⟨[.lineComment body, .newline], rfl, fun after => ?_⟩
  have hnewline : Reads ('\n' :: after) [.newline] after :=
    .piece trivial (fun _ _ => rfl) rfl (.stop after)
  rw [List.append_assoc]
  exact .piece h (Piece.endsBefore_cons.2 rfl) rfl hnewline

theorem IsFiller.append {text more : List Char} (h : IsFiller text) (hm : IsFiller more) :
    IsFiller (text ++ more) := by
  obtain ⟨ps, hps, hr⟩ := h
  obtain ⟨qs, hqs, hs⟩ := hm
  refine ⟨ps ++ qs, by rw [tokensOf_append, hps, hqs]; rfl, fun after => ?_⟩
  rw [List.append_assoc]
  exact reads_append_iff.2 ⟨_, hr _, hs after⟩

/-- A piece that gives no token is a comment or begins with a character without meaning. -/
theorem Piece.WellFormed.head_of_token?_eq_none {p : Piece} (hw : p.WellFormed)
    (h : p.token? = none) : ∀ c ∈ p.text.head?, c = '/' ∨ isSignificant c = false := by
  intro c hc
  cases p with
  | blockComment body => exact .inl (Option.some.inj hc).symm
  | lineComment body => exact .inl (Option.some.inj hc).symm
  | newline => cases hc; exact .inr rfl
  | skipped d =>
    cases hc
    have hs : isSkippable c = true := hw
    exact .inr (isSignificant_eq_false_of_isSkippable hs)
  | _ => cases h

theorem IsFiller.head {text : List Char} (h : IsFiller text) :
    ∀ c ∈ text.head?, c = '/' ∨ isSignificant c = false := by
  obtain ⟨pieces, ht, hr⟩ := h
  have hreads := hr []
  rw [List.append_nil] at hreads
  intro c hc
  cases hreads with
  | stop => cases hc
  | @piece p pieces _ after _ hp _ hs _ =>
    have hnone : p.token? = none := List.filterMap_eq_nil_iff.1 ht p (by simp)
    refine hp.head_of_token?_eq_none hnone c ?_
    cases htext : p.text with
    | nil => exact absurd htext hp.text_ne_nil
    | cons d rest => rw [hs, htext] at hc; exact hc

/-! ## Layouts -/

/-- Tokens in their spellings, each with a text before it, and a text at the end. -/
def layOut (spaced : List (List Char × Token)) (last : List Char) : List Char :=
  spaced.flatMap (fun a => a.1 ++ a.2.spelling) ++ last

/-- Two neighbours that fuse have something between them. -/
def Separated (a b : List Char × Token) : Prop := a.2.fuses b.2 = true → b.1 ≠ []

/-- No comment begins right after a slash. -/
def ClearOf (a : List Char × Token) (next : List Char) : Prop :=
  a.2.isOperator .divide = true → next.head? ≠ some '/'

theorem layOut_cons (gap : List Char) (t : Token) (spaced : List (List Char × Token))
    (last : List Char) :
    layOut ((gap, t) :: spaced) last = gap ++ (t.spelling ++ layOut spaced last) := by
  simp [layOut]

section

variable {spaced : List (List Char × Token)} {last : List Char}

/-- Before a filler a token ends, unless it is a slash before a comment. -/
theorem endsBefore_of_isFiller {p : Piece} {gap text rest : List Char} {t : Token}
    (hp : p.token? = some t) (hf : IsFiller text) (hc : ClearOf (gap, t) text)
    (hne : text = [] → rest = []) : p.EndsBefore (text ++ rest) := by
  cases text with
  | nil => rw [hne rfl]; exact p.endsBefore_nil
  | cons c text =>
    rw [List.cons_append, Piece.endsBefore_cons, Bool.eq_false_iff]
    intro hext
    rcases hf.head c rfl with rfl | hs
    · exact hc (p.isOperator_of_extendsBy_slash hp hext) rfl
    · have hsig := Piece.isSignificant_of_extendsBy hext fun body hb => by rw [hb] at hp; cases hp
      rw [hs] at hsig
      cases hsig

theorem endsBefore_spelling_iff {p : Piece} {t u : Token} (hp : p.token? = some t)
    (hu : u.WellFormed) (rest : List Char) :
    p.EndsBefore (u.spelling ++ rest) ↔ t.fuses u = false := by
  obtain ⟨q, hq, hqt⟩ := hu.exists_piece
  obtain ⟨c, text, hspell, hbegin⟩ := hq.beginsWith hqt
  rw [hspell, List.cons_append, Piece.endsBefore_cons, Piece.fuses_eq_extendsBy hp hbegin]

/-- A token of a layout ends where its spelling does. -/
theorem endsBefore_layOut {p : Piece} {gap : List Char} {t : Token} (hp : p.token? = some t)
    (hs : ∀ a ∈ spaced, IsFiller a.1 ∧ a.2.WellFormed) (hl : IsFiller last)
    (hnext : ∀ b ∈ spaced.head?, Separated (gap, t) b ∧ ClearOf (gap, t) b.1)
    (hlast : spaced = [] → ClearOf (gap, t) last) : p.EndsBefore (layOut spaced last) := by
  cases spaced with
  | nil =>
    have hend : p.EndsBefore (last ++ []) :=
      endsBefore_of_isFiller hp hl (hlast rfl) fun _ => rfl
    rwa [List.append_nil] at hend
  | cons b spaced =>
    obtain ⟨next, u⟩ := b
    obtain ⟨hn, hu⟩ := hs (next, u) (by simp)
    obtain ⟨hsep, hclear⟩ := hnext (next, u) rfl
    rw [layOut_cons]
    by_cases hnil : next = []
    · rw [hnil, List.nil_append, endsBefore_spelling_iff hp hu, Bool.eq_false_iff]
      exact fun hfuse => hsep hfuse hnil
    · exact endsBefore_of_isFiller hp hn hclear (absurd · hnil)

/-- A piece that ends at its token in a layout is separated from the next token. -/
theorem separated_of_endsBefore_layOut {p : Piece} {gap : List Char} {t : Token}
    (hp : p.token? = some t) (hs : ∀ a ∈ spaced, a.2.WellFormed)
    (hend : p.EndsBefore (layOut spaced last)) : ∀ b ∈ spaced.head?, Separated (gap, t) b := by
  intro b hb hfuse hnil
  cases spaced with
  | nil => cases hb
  | cons b' spaced =>
    cases hb
    obtain ⟨next, u⟩ := b
    obtain rfl : next = [] := hnil
    rw [layOut_cons, List.nil_append, endsBefore_spelling_iff hp (hs ([], u) (by simp))] at hend
    rw [hend] at hfuse
    cases hfuse

theorem exists_reads_layOut (hs : ∀ a ∈ spaced, IsFiller a.1 ∧ a.2.WellFormed)
    (hl : IsFiller last) (hc : spaced.IsChain fun a b => Separated a b ∧ ClearOf a b.1)
    (hlast : ∀ a ∈ spaced.getLast?, ClearOf a last) :
    ∃ pieces, Reads (layOut spaced last) pieces [] ∧ tokensOf pieces = spaced.map (·.2) := by
  induction spaced with
  | nil =>
    obtain ⟨pieces, ht, hr⟩ := hl
    have hend := hr []
    rw [List.append_nil] at hend
    exact ⟨pieces, hend, ht⟩
  | cons a spaced ih =>
    obtain ⟨gap, t⟩ := a
    obtain ⟨hg, ht⟩ := hs (gap, t) (by simp)
    obtain ⟨hhead, htail⟩ := List.isChain_cons.1 hc
    obtain ⟨pieces, hr, htokens⟩ := ih (fun b hb => hs b (List.mem_cons_of_mem (gap, t) hb)) htail
      fun b hb => hlast b (by cases spaced with | nil => cases hb | cons _ _ => simpa using hb)
    obtain ⟨p, hp, hpt⟩ := ht.exists_piece
    have hend : p.EndsBefore (layOut spaced last) :=
      endsBefore_layOut hpt (fun b hb => hs b (List.mem_cons_of_mem (gap, t) hb)) hl hhead
        fun hnil => hlast (gap, t) (by rw [hnil]; rfl)
    obtain ⟨fill, hfill, hread⟩ := hg
    have htoken : Reads (t.spelling ++ layOut spaced last) (p :: pieces) [] :=
      .piece hp hend (by rw [Piece.text_eq_spelling hpt]) hr
    refine ⟨fill ++ p :: pieces, ?_, ?_⟩
    · rw [layOut_cons]
      exact reads_append_iff.2 ⟨_, hread _, htoken⟩
    · rw [tokensOf_append, hfill, List.nil_append, tokensOf, List.filterMap_cons_some hpt,
        ← tokensOf, htokens, List.map_cons]

/-! ## Layouts that give their tokens

If a layout with gaps gives its tokens, then nothing in it is read as a comment. -/

/-- The significant characters of a text are those of its tokens' spellings and those of
the pieces that give no token. -/
theorem countP_textOf (pieces : List Piece) :
    (textOf pieces).countP isSignificant =
      ((tokensOf pieces).flatMap Token.spelling).countP isSignificant +
        (textOf (pieces.filter (·.token?.isNone))).countP isSignificant := by
  induction pieces with
  | nil => rfl
  | cons p pieces ih =>
    rw [textOf_cons, List.countP_append, ih]
    cases hp : p.token? with
    | none =>
      have htokens : tokensOf (p :: pieces) = tokensOf pieces := by
        rw [tokensOf, List.filterMap_cons_none hp, tokensOf]
      rw [htokens, List.filter_cons_of_pos (by rw [hp]; rfl), textOf_cons, List.countP_append]
      omega
    | some t =>
      have htokens : tokensOf (p :: pieces) = t :: tokensOf pieces := by
        rw [tokensOf, List.filterMap_cons_some hp, tokensOf]
      rw [htokens, List.filter_cons_of_neg (by simp [hp]), List.flatMap_cons,
        List.countP_append, Piece.text_eq_spelling hp]
      omega

theorem countP_eq_zero_of_isGap {gap : List Char} (h : IsGap gap) :
    gap.countP isSignificant = 0 := by
  refine List.countP_eq_zero.2 fun c hc => ?_
  rw [h c hc]
  decide

theorem countP_layOut (hs : ∀ a ∈ spaced, IsGap a.1) (hl : IsGap last) :
    (layOut spaced last).countP isSignificant =
      ((spaced.map (·.2)).flatMap Token.spelling).countP isSignificant := by
  induction spaced with
  | nil => exact countP_eq_zero_of_isGap hl
  | cons a spaced ih =>
    obtain ⟨gap, t⟩ := a
    have hgap := countP_eq_zero_of_isGap (hs (gap, t) (by simp))
    have hrest := ih fun b hb => hs b (List.mem_cons_of_mem (gap, t) hb)
    rw [layOut_cons, List.countP_append, List.countP_append, hgap, hrest, List.map_cons,
      List.flatMap_cons, List.countP_append]
    dsimp only
    omega

theorem isGap_of_reads_layOut {pieces : List Piece} (hs : ∀ a ∈ spaced, IsGap a.1)
    (hl : IsGap last) (hr : Reads (layOut spaced last) pieces [])
    (ht : tokensOf pieces = spaced.map (·.2)) :
    ∀ p ∈ pieces, p.token? = none → IsGap p.text := by
  have hcount := countP_textOf pieces
  have htext : layOut spaced last = textOf pieces := by rw [hr.source_eq, List.append_nil]
  rw [← htext, countP_layOut hs hl, ht] at hcount
  have hzero : (textOf (pieces.filter (·.token?.isNone))).countP isSignificant = 0 := by omega
  intro p hp hnone c hc
  have hmem : c ∈ textOf (pieces.filter (·.token?.isNone)) :=
    List.mem_flatMap.2 ⟨p, List.mem_filter.2 ⟨hp, by rw [hnone]; rfl⟩, hc⟩
  simpa using List.countP_eq_zero.1 hzero c hmem

/-- A piece that begins where a token is spelled gives a token, if only gaps give none. -/
theorem token?_ne_none_of_spelling {p : Piece} {t : Token} {rest after : List Char}
    (hw : p.WellFormed) (ht : t.WellFormed) (htext : t.spelling ++ rest = p.text ++ after)
    (hg : p.token? = none → IsGap p.text) : p.token? ≠ none := by
  intro hnone
  obtain ⟨q, hq, hqt⟩ := ht.exists_piece
  obtain ⟨c, text, hspell, hbegin⟩ := hq.beginsWith hqt
  cases hp : p.text with
  | nil => exact absurd hp hw.text_ne_nil
  | cons d text' =>
    rw [hspell, hp, List.cons_append, List.cons_append] at htext
    obtain ⟨rfl, _⟩ := List.cons.inj htext
    exact absurd (by rw [hp]; simp) ((hg hnone).not_mem hbegin.significant)

/-- The first piece of a layout that gives its tokens gives the first token, so it ends
where that token ends. -/
theorem isChain_of_reading_layOut {pieces : List Piece}
    (hs : ∀ a ∈ spaced, IsGap a.1 ∧ a.2.WellFormed)
    (hr : Reading (layOut spaced last) pieces [] none) (ht : tokensOf pieces = spaced.map (·.2))
    (hg : ∀ p ∈ pieces, p.token? = none → IsGap p.text) : spaced.IsChain Separated := by
  induction spaced generalizing pieces with
  | nil => exact .nil
  | cons a spaced ih =>
    obtain ⟨gap, t⟩ := a
    obtain ⟨hgap, hwf⟩ := hs (gap, t) (by simp)
    have hrest := fun b hb => hs b (List.mem_cons_of_mem (gap, t) hb)
    rw [layOut_cons] at hr
    obtain ⟨pieces, rfl, hafterGap⟩ := hr.of_gap hgap
    rw [tokensOf_append, tokensOf_piecesOfGap, List.nil_append, List.map_cons] at ht
    have hreads := hafterGap.reads
    generalize hsource : t.spelling ++ layOut spaced last = source at hreads
    cases hreads with
    | stop => cases ht
    | @piece p pieces _ after _ hp hend htext hafter =>
      rw [← hsource] at htext
      cases hpt : p.token? with
      | none => exact absurd hpt (token?_ne_none_of_spelling hp hwf htext (hg p (by simp)))
      | some u =>
        rw [tokensOf, List.filterMap_cons_some hpt, ← tokensOf] at ht
        obtain ⟨rfl, htokens⟩ := List.cons.inj ht
        rw [Piece.text_eq_spelling hpt] at htext
        obtain rfl := List.append_cancel_left htext
        have hnext : ∀ b ∈ spaced.head?, Separated (gap, u) b :=
          separated_of_endsBefore_layOut hpt (fun b hb => (hrest b hb).2) hend
        have htail := ih hrest ⟨hafter, rfl⟩ htokens fun r hr => hg r (by simp [hr])
        exact List.isChain_cons.2 ⟨hnext, htail⟩

theorem clearOf_of_isGap {gap : List Char} (h : IsGap gap) (a : List Char × Token) :
    ClearOf a gap := by
  intro _ hc
  exact h.not_mem (by decide) (List.mem_of_mem_head? hc)

/-- Between gaps only the tokens that fuse have to be kept apart. -/
theorem exists_reads_layOut_of_isGap (hs : ∀ a ∈ spaced, IsGap a.1 ∧ a.2.WellFormed)
    (hl : IsGap last) (hc : spaced.IsChain Separated) :
    ∃ pieces, Reads (layOut spaced last) pieces [] ∧ tokensOf pieces = spaced.map (·.2) := by
  refine exists_reads_layOut (fun a ha => ⟨(hs a ha).1.isFiller, (hs a ha).2⟩) hl.isFiller ?_
    fun a _ => clearOf_of_isGap hl a
  exact hc.imp_of_mem_imp fun a b _ hb hsep => ⟨hsep, clearOf_of_isGap (hs b hb).1 a⟩

end

/-- Every token that a scan gives is well formed, and a layout of well-formed tokens with
gaps scans to them exactly if the neighbours that fuse are separated. Comments may stand
between the tokens too, but not right after a slash. -/
theorem scan_layOut_iff_separated :
    (∀ source tokens, scan source = .ok tokens → ∀ t ∈ tokens, t.WellFormed) ∧
    (∀ (spaced : List (List Char × Token)) (last : List Char),
      (∀ a ∈ spaced, IsGap a.1 ∧ a.2.WellFormed) → IsGap last →
      (scan (layOut spaced last) = .ok (spaced.map (·.2)) ↔ spaced.IsChain Separated)) ∧
    ∀ (spaced : List (List Char × Token)) (last : List Char),
      (∀ a ∈ spaced, IsFiller a.1 ∧ a.2.WellFormed) → IsFiller last →
      spaced.IsChain (fun a b => Separated a b ∧ ClearOf a b.1) →
      (∀ a ∈ spaced.getLast?, ClearOf a last) →
      scan (layOut spaced last) = .ok (spaced.map (·.2)) := by
  refine ⟨fun source tokens h t ht => ?_, fun spaced last hs hl => ⟨fun h => ?_, fun hc => ?_⟩,
    fun spaced last hs hl hc hlast => ?_⟩
  · obtain ⟨pieces, hr, rfl⟩ := reads_of_scan_eq_ok h
    exact wellFormed_of_mem_tokensOf hr.wellFormed ht
  · obtain ⟨pieces, hr, ht⟩ := reads_of_scan_eq_ok h
    have hgaps := isGap_of_reads_layOut (fun a ha => (hs a ha).1) hl hr ht
    exact isChain_of_reading_layOut hs ⟨hr, rfl⟩ ht hgaps
  · obtain ⟨pieces, hr, ht⟩ := exists_reads_layOut_of_isGap hs hl hc
    rw [hr.scan_eq_ok, ht]
  · obtain ⟨pieces, hr, ht⟩ := exists_reads_layOut hs hl hc hlast
    rw [hr.scan_eq_ok, ht]

/-- A minus has to be kept apart from a negative number, and a slash from a comment. -/
theorem scan_layOut_minus_number :
    (⟨.intConstant, ['-', '5']⟩ : Token).WellFormed ∧
    scan ['-', ' ', '-', '5'] = .ok [⟨.operator, ['-']⟩, ⟨.intConstant, ['-', '5']⟩] ∧
    scan ['-', '-', '5'] ≠ .ok [⟨.operator, ['-']⟩, ⟨.intConstant, ['-', '5']⟩] ∧
    scan ['/', ' ', '/', '*', '*', '/', '/', '/', '\n', '/'] =
      .ok [⟨.operator, ['/']⟩, ⟨.operator, ['/']⟩] := by
  have hminus : (⟨.operator, ['-']⟩ : Token).WellFormed := ⟨.minus, rfl⟩
  have hslash : (⟨.operator, ['/']⟩ : Token).WellFormed := ⟨.divide, rfl⟩
  have hfive : (⟨.intConstant, ['-', '5']⟩ : Token).WellFormed :=
    ⟨true, ['5'], by simp [Piece.WellFormed, maxDigits], rfl⟩
  have hblank : IsGap [' '] := by simp [IsGap]; decide
  have hcomments : IsFiller [' ', '/', '*', '*', '/', '/', '/', '\n'] :=
    (hblank.isFiller.append (@isFiller_blockComment [] (by simp [Piece.WellFormed]))).append
      (@isFiller_lineComment [] (by simp [Piece.WellFormed]))
  obtain ⟨hwf, hiff, hfill⟩ := scan_layOut_iff_separated
  have hapart := (hiff [([], ⟨.operator, ['-']⟩), ([' '], ⟨.intConstant, ['-', '5']⟩)] []
    (by simp [hminus, hfive, hblank, isGap_nil]) isGap_nil).2 (by simp [Separated])
  have htouch := hiff [([], ⟨.operator, ['-']⟩), ([], ⟨.intConstant, ['-', '5']⟩)] []
    (by simp [hminus, hfive, isGap_nil]) isGap_nil
  refine ⟨hwf _ _ hapart _ (by simp), hapart, fun h => ?_, ?_⟩
  · have hsep := htouch.1 h
    simp [Separated] at hsep
    exact absurd hsep (by decide)
  · exact hfill [([], ⟨.operator, ['/']⟩),
      ([' ', '/', '*', '*', '/', '/', '/', '\n'], ⟨.operator, ['/']⟩)] []
      (by simp [hslash, hcomments, isGap_nil.isFiller]) isGap_nil.isFiller
      (by simp [Separated, ClearOf]) (by simp [ClearOf])

end Ceng
