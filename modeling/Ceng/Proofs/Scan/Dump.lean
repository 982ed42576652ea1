import Ceng.Proofs.Scan.Layout
import Ceng.Proofs.Token.DumpReader

/-!
# Dumps of scanned sources

A string constant may hold newlines and braces, and a dump has them as they are. So the
lines of two tokens can also be the one line of a string constant, and two sources can have
one dump though their tokens differ. It is said here which dumps are shared in this way,
and that strings which imitate no boundary of lines are harmless among themselves.
-/
namespace Ceng

/-! ## Tokens that a scan gives -/

theorem wellFormed_of_scan_eq_ok {source : List Char} {tokens : List Token}
    (h : scan source = .ok tokens) : ∀ t ∈ tokens, t.WellFormed := by
  obtain ⟨pieces, hr, rfl⟩ := reads_of_scan_eq_ok h
  exact fun t ht => wellFormed_of_mem_tokensOf hr.wellFormed ht

/-- Well-formed tokens have a source: their spellings with blanks between them. -/
theorem exists_scan_eq_ok {tokens : List Token} (h : ∀ t ∈ tokens, t.WellFormed) :
    ∃ source, scan source = .ok tokens := by
  have hblank : IsGap [' '] := fun c hc => by rw [List.mem_singleton.1 hc]; rfl
  have hspaced : ∀ a ∈ tokens.map (([' '] : List Char), ·), IsGap a.1 ∧ a.2.WellFormed := by
    intro a ha
    obtain ⟨t, ht, rfl⟩ := List.mem_map.1 ha
    exact ⟨hblank, h t ht⟩
  have hchain : (tokens.map (([' '] : List Char), ·)).IsChain Separated :=
    List.isChain_iff_getElem.2 fun i hi => by simp [Separated]
  obtain ⟨pieces, hr, ht⟩ := exists_reads_layOut_of_isGap hspaced isGap_nil hchain
  refine ⟨layOut (tokens.map (([' '] : List Char), ·)) [], ?_⟩
  rw [hr.scan_eq_ok, ht, List.map_map]
  simp [Function.comp_def]

/-- Only strings have characters that could be taken for the end of a line or of a string. -/
theorem Token.WellFormed.plain_of_mem {t : Token} (hw : t.WellFormed)
    (hk : t.kind ≠ .stringConstant) {c : Char} (hc : c ∈ t.text) : c ≠ '\n' ∧ c ≠ '"' := by
  obtain ⟨p, hp, ht⟩ := hw.exists_piece
  cases p with
  | word text =>
    cases ht
    have hword : isWordChar c = true := hp.2.1 c hc
    constructor <;> rintro rfl <;> cases hword
  | number negative digits =>
    cases ht
    rcases List.mem_append.1 hc with hsign | hdigit
    · cases negative with
      | true => rw [List.mem_singleton.1 hsign]; decide
      | false => cases hsign
    · have hd := hp.2.1 c hdigit
      constructor <;> rintro rfl <;> cases hd
  | operator op =>
    cases ht
    have hall : op.text.all (fun d => d != '\n' && d != '"') = true := by cases op <;> decide
    simpa using List.all_eq_true.1 hall c hc
  | bracket b =>
    cases ht
    rw [List.mem_singleton.1 hc]
    cases b <;> decide
  | statementEnd => cases ht; cases hc
  | string body => cases ht; exact absurd rfl hk
  | blockComment | lineComment | newline | skipped => cases ht

theorem Token.WellFormed.newline_not_mem {t : Token} (hw : t.WellFormed)
    (h : t.kind ≠ .stringConstant ∨ t.text = []) : '\n' ∉ t.text := by
  intro hc
  rcases h with hk | hnil
  · exact (hw.plain_of_mem hk hc).1 rfl
  · rw [hnil] at hc
    cases hc

theorem Token.WellFormed.quote_not_mem {t : Token} (hw : t.WellFormed) : '"' ∉ t.text := by
  obtain ⟨kind, text⟩ := t
  by_cases hk : kind = .stringConstant
  · subst hk
    exact hw
  · exact fun hc => (hw.plain_of_mem hk hc).2 rfl

/-! ## Lines with something after them -/

namespace Token

variable {t u : Token} {a b : List Char}

/-- After its label a line goes on with a comma or with a brace. -/
theorem exists_line_eq_label (t : Token) : ∃ value,
    t.line = lineStart ++ (t.kind.label.toList ++ value) ∧
      value.head? = some (if t.text = [] then '\x7d' else ',') := by
  refine ⟨(if t.text = [] then [] else valueMark ++ t.text) ++ ['\x7d'], by simp [line], ?_⟩
  by_cases ht : t.text = []
  · simp [ht]
  · have hmark : valueMark = ',' :: valueMark.tail := by decide
    rw [if_neg ht, if_neg ht, hmark]
    rfl

theorem takeWhile_label {value more : List Char} {k : Kind} {c : Char}
    (hv : value.head? = some c) (hc : isLabelChar c = false) :
    (k.label.toList ++ (value ++ more)).takeWhile isLabelChar = k.label.toList := by
  refine takeWhile_append_stop (fun _ => isLabelChar_of_mem_label) fun d hd => ?_
  rw [List.head?_append, hv] at hd
  cases hd
  exact hc

/-- How a line starts says of which kind the token is and whether it has a text. -/
theorem kind_eq_of_line_append_eq (h : t.line ++ a = u.line ++ b) :
    t.kind = u.kind ∧ (t.text = [] ↔ u.text = []) := by
  obtain ⟨v, hv, hvhead⟩ := t.exists_line_eq_label
  obtain ⟨w, hw, hwhead⟩ := u.exists_line_eq_label
  rw [hv, hw, List.append_assoc, List.append_assoc, List.append_assoc, List.append_assoc] at h
  have htail := List.append_cancel_left h
  have hmark (p : Prop) [Decidable p] : isLabelChar (if p then '\x7d' else ',') = false := by
    by_cases hp : p
    · rw [if_pos hp]; decide
    · rw [if_neg hp]; decide
  have hlabel : t.kind.label.toList = u.kind.label.toList := by
    rw [← takeWhile_label hvhead (hmark _), htail, takeWhile_label hwhead (hmark _)]
  rw [hlabel] at htail
  have hhead := congrArg List.head? (List.append_cancel_left htail)
  rw [List.head?_append, List.head?_append, hvhead, hwhead] at hhead
  refine ⟨Kind.label_injective (String.toList_injective hlabel), ?_⟩
  by_cases ht : t.text = [] <;> by_cases hu : u.text = [] <;> simp_all

theorem lead_eq_of_line_append_eq (h : t.line ++ a = u.line ++ b) : t.lead = u.lead := by
  obtain ⟨hkind, htext⟩ := kind_eq_of_line_append_eq h
  rw [lead, lead, hkind]
  by_cases ht : t.text = []
  · rw [if_pos ht, if_pos (htext.1 ht)]
  · rw [if_neg ht, if_neg fun hu => ht (htext.2 hu)]

/-- Lines without newlines are the same if they are followed by newlines or by nothing. -/
theorem eq_of_line_append_eq (ht : '\n' ∉ t.text) (hu : '\n' ∉ u.text)
    (ha : ∀ c ∈ a.head?, c = '\n') (hb : ∀ c ∈ b.head?, c = '\n')
    (h : t.line ++ a = u.line ++ b) : t = u ∧ a = b := by
  have hstop {v : Token} {more : List Char} (hv : '\n' ∉ v.text)
      (hm : ∀ c ∈ more.head?, c = '\n') : (v.line ++ more).takeWhile (· != '\n') = v.line := by
    refine takeWhile_append_stop (fun c hc => ?_) fun c hc => by rw [hm c hc]; rfl
    exact bne_iff_ne.2 fun he => newline_not_mem_line hv (he ▸ hc)
  have hline : t.line = u.line := by rw [← hstop ht ha, h, hstop hu hb]
  rw [hline] at h
  exact ⟨line_injective hline, List.append_cancel_left h⟩

end Token

/-! ## Two lines as one -/

/-- What a dump has after its first line. -/
def dumpAfter : List Token → List Char
  | [] => []
  | t :: rest => '\n' :: dump (t :: rest)

theorem dump_cons (t : Token) (rest : List Token) :
    dump (t :: rest) = t.line ++ dumpAfter rest := by
  cases rest with
  | nil => simp [dumpAfter]
  | cons u rest => exact dump_cons_cons t u rest

theorem head?_dumpAfter (rest : List Token) : ∀ c ∈ (dumpAfter rest).head?, c = '\n' := by
  intro c hc
  cases rest with
  | nil => cases hc
  | cons t rest => exact (Option.some.inj hc).symm

theorem dump_eq_of_dumpAfter_eq {ts us : List Token} (h : dumpAfter ts = dumpAfter us) :
    dump ts = dump us := by
  cases ts with
  | nil => cases us with
    | nil => rfl
    | cons u us => cases h
  | cons t ts => cases us with
    | nil => cases h
    | cons u us => exact (List.cons.inj h).2

/-- The dump of a list changes with that of its end alone. -/
theorem dump_append_congr (front : List Token) {ts us : List Token} (hts : ts ≠ [])
    (hus : us ≠ []) (h : dump ts = dump us) : dump (front ++ ts) = dump (front ++ us) := by
  induction front with
  | nil => exact h
  | cons t front ih =>
    have hafter : dumpAfter (front ++ ts) = dumpAfter (front ++ us) := by
      cases hleft : front ++ ts with
      | nil => exact absurd (List.append_eq_nil_iff.1 hleft).2 hts
      | cons v vs =>
        cases hright : front ++ us with
        | nil => exact absurd (List.append_eq_nil_iff.1 hright).2 hus
        | cons w ws => rw [dumpAfter, dumpAfter, ← hleft, ← hright, ih]
    rw [List.cons_append, List.cons_append, dump_cons, dump_cons, hafter]

namespace Token

/-- One token with the line of the first one up to its brace, the brace and the newline,
and the line of the second one up to its brace. -/
def absorb (t u : Token) : Token := ⟨t.kind, t.text ++ '\x7d' :: '\n' :: (u.lead ++ u.text)⟩

/-- The text goes on after a brace with the lines of more tokens, all but the last brace. -/
def ImitatesLines (text : List Char) : Prop :=
  ∃ first u rest, first ≠ [] ∧ (∀ v ∈ u :: rest, v.WellFormed) ∧
    text ++ ['\x7d'] = first ++ '\x7d' :: '\n' :: dump (u :: rest)

theorem line_absorb {t : Token} (ht : t.text ≠ []) (u : Token) :
    (t.absorb u).line = t.line ++ '\n' :: u.line := by
  rw [line_eq, line_eq, line_eq]
  simp [absorb, lead, ht]

theorem quote_not_mem_lead (u : Token) : '"' ∉ u.lead := by
  intro h
  rcases mem_lead h with hstart | hlabel | hmark
  · exact absurd hstart (by decide)
  · exact absurd (isAlpha_of_mem_label hlabel) (by decide)
  · exact absurd hmark (by decide)

theorem WellFormed.absorb {t u : Token} (hk : t.kind = .stringConstant) (ht : t.WellFormed)
    (hu : u.WellFormed) : (t.absorb u).WellFormed := by
  have htext : '"' ∉ (t.absorb u).text := by
    simp only [Token.absorb, List.mem_append, List.mem_cons, not_or]
    exact ⟨ht.quote_not_mem, by decide, by decide, u.quote_not_mem_lead, hu.quote_not_mem⟩
  simpa [WellFormed, Token.absorb, hk] using htext

end Token

theorem dump_absorb {t : Token} (ht : t.text ≠ []) (u : Token) (rest : List Token) :
    dump (t.absorb u :: rest) = dump (t :: u :: rest) := by
  rw [dump_cons, dump_cons_cons, dump_cons, Token.line_absorb ht]
  simp

/-- A string that imitates lines has the dump of several tokens. -/
theorem exists_dump_of_imitatesLines {t : Token} (hk : t.kind = .stringConstant)
    (hw : t.WellFormed) (h : Token.ImitatesLines t.text) :
    ∃ s u rest, (∀ v ∈ s :: u :: rest, v.WellFormed) ∧ dump (s :: u :: rest) = dump [t] := by
  obtain ⟨first, u, rest, hne, hrest, htext⟩ := h
  have hfirst : '"' ∉ first := by
    intro hc
    have hmem : '"' ∈ t.text ++ ['\x7d'] := by
      rw [htext]
      exact List.mem_append_left _ hc
    rcases List.mem_append.1 hmem with hbody | hbrace
    · exact hw.quote_not_mem hbody
    · exact absurd (List.mem_singleton.1 hbrace) (by decide)
  have ht : t.text ≠ [] := by
    intro hnil
    rw [hnil] at htext
    have hlength := congrArg List.length htext
    simp at hlength
    omega
  refine ⟨⟨.stringConstant, first⟩, u, rest, List.forall_mem_cons.2 ⟨hfirst, hrest⟩, ?_⟩
  have hlead : t.lead = Token.lead ⟨.stringConstant, first⟩ := by simp [Token.lead, hk, ht, hne]
  rw [dump_cons_cons, dump_singleton, t.line_eq, List.append_assoc, htext, Token.line_eq, hlead]
  simp

/-! ## Shared dumps -/

/-- Two lists of tokens with one dump part at a string with a text in it. In either list it
is followed by another token or imitates lines. -/
theorem exists_regrouped {ts us : List Token} (hts : ∀ t ∈ ts, t.WellFormed)
    (hus : ∀ u ∈ us, u.WellFormed) (h : dump us = dump ts) (hne : us ≠ ts) :
    ∃ front t back, ts = front ++ t :: back ∧ t.kind = .stringConstant ∧ t.text ≠ [] ∧
      (back ≠ [] ∨ Token.ImitatesLines t.text) := by
  induction ts generalizing us with
  | nil => exact absurd (dump_eq_nil_iff.1 h) hne
  | cons t ts ih =>
    cases us with
    | nil => cases dump_eq_nil_iff.1 h.symm
    | cons u us =>
      obtain ⟨ht, hrest⟩ := List.forall_mem_cons.1 hts
      obtain ⟨hu, hrest'⟩ := List.forall_mem_cons.1 hus
      rw [dump_cons, dump_cons] at h
      obtain ⟨hkind, htext⟩ := Token.kind_eq_of_line_append_eq h
      by_cases hs : t.kind = .stringConstant ∧ t.text ≠ []
      · refine ⟨[], t, ts, rfl, hs.1, hs.2, ?_⟩
        cases ts with
        | cons v ts => exact .inl (by simp)
        | nil =>
          cases us with
          | nil =>
            simp only [dumpAfter, List.append_nil] at h
            exact absurd (by rw [Token.line_injective h]) hne
          | cons v us =>
            have hlead := Token.lead_eq_of_line_append_eq h
            rw [u.line_eq, t.line_eq, hlead, dumpAfter, dumpAfter, List.append_nil] at h
            simp only [List.append_assoc] at h
            have htail := List.append_cancel_left h
            exact .inr ⟨u.text, v, us, fun hnil => hs.2 (htext.1 hnil), hrest', htail.symm⟩
      · -- Neither line holds a newline, so they are the same.
        have hplain : t.kind ≠ .stringConstant ∨ t.text = [] := by
          by_cases hk : t.kind = .stringConstant
          · exact .inr (Decidable.not_not.1 fun hnil => hs ⟨hk, hnil⟩)
          · exact .inl hk
        have hplain' : u.kind ≠ .stringConstant ∨ u.text = [] := by rwa [hkind, htext]
        obtain ⟨rfl, hafter⟩ := Token.eq_of_line_append_eq (hu.newline_not_mem hplain')
          (ht.newline_not_mem hplain) (head?_dumpAfter us) (head?_dumpAfter ts) h
        obtain ⟨front, s, back, rfl, hparts⟩ :=
          ih hrest hrest' (dump_eq_of_dumpAfter_eq hafter) fun he => hne (by rw [he])
        exact ⟨u :: front, s, back, rfl, hparts⟩

/-- Tokens whose strings are taken apart or together have the dump of other tokens. -/
theorem exists_dump_eq_of_regrouped {front back : List Token} {t : Token}
    (hw : ∀ v ∈ front ++ t :: back, v.WellFormed) (hk : t.kind = .stringConstant)
    (ht : t.text ≠ []) (h : back ≠ [] ∨ Token.ImitatesLines t.text) :
    ∃ us, (∀ u ∈ us, u.WellFormed) ∧ dump us = dump (front ++ t :: back) ∧
      us ≠ front ++ t :: back := by
  obtain ⟨hfront, hback⟩ := List.forall_mem_append.1 hw
  obtain ⟨hwt, hback⟩ := List.forall_mem_cons.1 hback
  cases back with
  | cons u back =>
    obtain ⟨hwu, hback⟩ := List.forall_mem_cons.1 hback
    refine ⟨front ++ t.absorb u :: back, ?_, ?_, fun he => ?_⟩
    · exact List.forall_mem_append.2
        ⟨hfront, List.forall_mem_cons.2 ⟨.absorb hk hwt hwu, hback⟩⟩
    · exact dump_append_congr front (by simp) (by simp) (dump_absorb ht u back)
    · have hlength := congrArg List.length (List.append_cancel_left he)
      simp at hlength
  | nil =>
    obtain ⟨s, u, rest, hrest, hdump⟩ :=
      exists_dump_of_imitatesLines hk hwt (h.resolve_left fun hnil => hnil rfl)
    refine ⟨front ++ s :: u :: rest, ?_, ?_, fun he => ?_⟩
    · exact List.forall_mem_append.2 ⟨hfront, hrest⟩
    · exact dump_append_congr front (by simp) (by simp) hdump
    · have hlength := congrArg List.length (List.append_cancel_left he)
      simp at hlength

/-- Among scanned tokens only strings can hold a boundary of lines. -/
theorem not_infix_of_scan {source : List Char} {tokens : List Token}
    (h : scan source = .ok tokens)
    (hs : ∀ t ∈ tokens, t.kind = .stringConstant → ¬ lineBoundary <:+: t.text) :
    ∀ t ∈ tokens, ¬ lineBoundary <:+: t.text := by
  intro t ht hm
  by_cases hk : t.kind = .stringConstant
  · exact hs t ht hk hm
  · have hw := wellFormed_of_scan_eq_ok h t ht
    exact hw.newline_not_mem (.inl hk) (hm.subset (by simp [lineBoundary]))

/-- The dump of a source determines its tokens, among all sources, exactly if a string with
a text in it only comes last and imitates no lines. Sources whose strings hold no boundary
of lines are told apart by their dumps in any case. -/
theorem dump_determines_tokens_iff {source : List Char} {ts : List Token}
    (hts : scan source = .ok ts) :
    ((∀ source' us, scan source' = .ok us → (dump us = dump ts ↔ us = ts)) ↔
      ∀ front t back, ts = front ++ t :: back → t.kind = .stringConstant → t.text ≠ [] →
        back = [] ∧ ¬ Token.ImitatesLines t.text) ∧
    ((∀ t ∈ ts, t.kind = .stringConstant → ¬ lineBoundary <:+: t.text) →
      ∀ source' us, scan source' = .ok us →
        (∀ u ∈ us, u.kind = .stringConstant → ¬ lineBoundary <:+: u.text) →
        (dump us = dump ts ↔ us = ts)) := by
  have hw := wellFormed_of_scan_eq_ok hts
  refine ⟨⟨?_, ?_⟩, fun hstrings source' us hus hstrings' => ?_⟩
  · rintro hall front t back rfl hk ht
    have hno : ¬ (back ≠ [] ∨ Token.ImitatesLines t.text) := by
      intro hregroup
      obtain ⟨us, hwus, hdump, hne⟩ := exists_dump_eq_of_regrouped hw hk ht hregroup
      obtain ⟨source', hus⟩ := exists_scan_eq_ok hwus
      exact hne ((hall source' us hus).1 hdump)
    obtain ⟨hback, himitates⟩ := not_or.1 hno
    exact ⟨not_not.1 hback, himitates⟩
  · intro hlast source' us hus
    refine ⟨fun h => ?_, congrArg dump⟩
    by_contra hne
    obtain ⟨front, t, back, heq, hk, ht, hregroup⟩ :=
      exists_regrouped hw (wellFormed_of_scan_eq_ok hus) h hne
    obtain ⟨hback, himitates⟩ := hlast front t back heq hk ht
    exact hregroup.elim (fun hnil => hnil hback) himitates
  · exact ⟨eq_of_dump_eq (not_infix_of_scan hus hstrings')
      (not_infix_of_scan hts hstrings), congrArg dump⟩

/-- A string that holds the end of one line and the start of the next has the dump of two
strings. -/
theorem dump_one_string_eq_dump_two :
    scan ('"' :: ("a\x7d\nToken\x7bType: StringConstant, Value: b".toList ++ ['"'])) =
      .ok [⟨.stringConstant, "a\x7d\nToken\x7bType: StringConstant, Value: b".toList⟩] ∧
    scan ['"', 'a', '"', ' ', '"', 'b', '"'] =
      .ok [⟨.stringConstant, ['a']⟩, ⟨.stringConstant, ['b']⟩] ∧
    dump [⟨.stringConstant, "a\x7d\nToken\x7bType: StringConstant, Value: b".toList⟩] =
      dump [⟨.stringConstant, ['a']⟩, ⟨.stringConstant, ['b']⟩] ∧
    ([⟨.stringConstant, "a\x7d\nToken\x7bType: StringConstant, Value: b".toList⟩] : List Token) ≠
      [⟨.stringConstant, ['a']⟩, ⟨.stringConstant, ['b']⟩] := by
  have hone : Reads ('"' :: ("a\x7d\nToken\x7bType: StringConstant, Value: b".toList ++ ['"']))
      [.string "a\x7d\nToken\x7bType: StringConstant, Value: b".toList] [] :=
    .piece (by simp [Piece.WellFormed]) (Piece.endsBefore_nil _) (by simp [Piece.text]) (.stop [])
  have htwo : Reads ['"', 'a', '"', ' ', '"', 'b', '"']
      [.string ['a'], .skipped ' ', .string ['b']] [] := by
    refine .piece ?_ ?_ rfl (.piece ?_ ?_ rfl (.piece ?_ (Piece.endsBefore_nil _) rfl (.stop [])))
    all_goals simp [Piece.WellFormed, Piece.EndsBefore, Piece.extendsBy]
    decide
  exact ⟨hone.scan_eq_ok, htwo.scan_eq_ok, by decide, by simp⟩

/-- A string with a brace and a newline is told apart from a shorter one. With the end of a
statement after it, another source has the same dump. -/
theorem dump_of_brace_newline_string :
    scan ['"', '\x7d', '\n', '"', ';'] =
      .ok [⟨.stringConstant, ['\x7d', '\n']⟩, ⟨.statementEnd, []⟩] ∧
    scan ['"', '\x7d', '"'] = .ok [⟨.stringConstant, ['\x7d']⟩] ∧
    dump [⟨.stringConstant, ['\x7d']⟩] ≠
      dump [⟨.stringConstant, ['\x7d', '\n']⟩, ⟨.statementEnd, []⟩] ∧
    ¬ ∀ source us, scan source = .ok us →
      (dump us = dump [⟨.stringConstant, ['\x7d', '\n']⟩, ⟨.statementEnd, []⟩] ↔
        us = [⟨.stringConstant, ['\x7d', '\n']⟩, ⟨.statementEnd, []⟩]) := by
  have hlong : Reads ['"', '\x7d', '\n', '"', ';'] [.string ['\x7d', '\n'], .statementEnd] [] := by
    refine .piece ?_ ?_ rfl (.piece trivial (Piece.endsBefore_nil _) rfl (.stop []))
    all_goals simp [Piece.WellFormed, Piece.EndsBefore, Piece.extendsBy]
  have hshort : Reads ['"', '\x7d', '"'] [.string ['\x7d']] [] :=
    .piece (by simp [Piece.WellFormed]) (Piece.endsBefore_nil _) rfl (.stop [])
  obtain ⟨hiff, hapart⟩ := dump_determines_tokens_iff hlong.scan_eq_ok
  refine ⟨hlong.scan_eq_ok, hshort.scan_eq_ok, fun h => ?_, fun h => ?_⟩
  · have hlong' : ∀ t ∈ tokensOf [.string ['\x7d', '\n'], .statementEnd], t.text.length < 14 := by
      decide
    have hshort' : ∀ t ∈ tokensOf [.string ['\x7d']], t.text.length < 14 := by decide
    have hdump := hapart (fun t ht _ => not_infix_of_length_lt (hlong' t ht)) _ _
      hshort.scan_eq_ok fun t ht _ => not_infix_of_length_lt (hshort' t ht)
    exact absurd (hdump.1 h) (by decide)
  · obtain ⟨hback, _⟩ := hiff.1 h [] _ [⟨.statementEnd, []⟩] rfl rfl (by simp)
    cases hback

end Ceng
