import Ceng.Token.DumpReader

/-!
# Reading back a dump

A dump is cut between its lines, and nowhere else unless the text of a token imitates
the boundary of two lines. No boundary can lie across the end of a text: the start of a
line holds no closing brace, and every line ends with one. Nothing is claimed about
what is read from a text that is no dump.
-/
namespace Ceng

/-- What the newline between two lines stands in: the end of one line and the start of
the next. -/
def lineBoundary : List Char := '\x7d' :: '\n' :: Token.lineStart

theorem not_infix_of_length_lt {text : List Char} (h : text.length < 14) :
    ¬ lineBoundary <:+: text := by
  intro hm
  have hlength := hm.length_le
  have hboundary : lineBoundary.length = 14 := by decide
  omega

namespace Token

/-- What a line holds before the text. -/
def lead (t : Token) : List Char :=
  lineStart ++ t.kind.label.toList ++ if t.text = [] then [] else valueMark

theorem line_eq (t : Token) : t.line = t.lead ++ t.text ++ ['\x7d'] := by
  by_cases ht : t.text = []
  · simp [line, lead, ht]
  · simp [line, lead, ht]

theorem lineStart_prefix_line (t : Token) (rest : List Char) : lineStart <+: t.line ++ rest := by
  simp [line, List.append_assoc]

theorem getLast?_line (t : Token) : t.line.getLast? = some '\x7d' := by
  rw [line_eq, List.getLast?_concat]

theorem brace_not_mem_lineStart : '\x7d' ∉ lineStart := by decide

theorem mem_lead {t : Token} {c : Char} (h : c ∈ t.lead) :
    c ∈ lineStart ∨ c ∈ t.kind.label.toList ∨ c ∈ valueMark := by
  rcases List.mem_append.1 h with hfront | hmark
  · rcases List.mem_append.1 hfront with hstart | hlabel
    · exact .inl hstart
    · exact .inr (.inl hlabel)
  · by_cases ht : t.text = []
    · rw [if_pos ht] at hmark
      cases hmark
    · rw [if_neg ht] at hmark
      exact .inr (.inr hmark)

theorem isAlpha_of_mem_label {k : Kind} {c : Char} (h : c ∈ k.label.toList) :
    c.isAlpha = true := by
  have hk : k.label.toList.all Char.isAlpha = true := by cases k <;> decide
  exact List.all_eq_true.1 hk c h

theorem brace_not_mem_lead (t : Token) : '\x7d' ∉ t.lead := by
  intro h
  rcases mem_lead h with hstart | hlabel | hmark
  · exact brace_not_mem_lineStart hstart
  · exact absurd (isAlpha_of_mem_label hlabel) (by decide)
  · exact absurd hmark (by decide)

theorem newline_not_mem_lead (t : Token) : '\n' ∉ t.lead := by
  intro h
  rcases mem_lead h with hstart | hlabel | hmark
  · exact absurd hstart (by decide)
  · exact absurd (isAlpha_of_mem_label hlabel) (by decide)
  · exact absurd hmark (by decide)

theorem newline_not_mem_line {t : Token} (h : '\n' ∉ t.text) : '\n' ∉ t.line := by
  rw [line_eq]
  simp only [List.mem_append, List.mem_singleton, not_or]
  exact ⟨⟨t.newline_not_mem_lead, h⟩, by decide⟩

end Token

/-! ## Cuts -/

/-- A newline at which a dump is cut, with the character before it and the text after it. -/
def IsCut (before : Option Char) (c : Char) (rest : List Char) : Prop :=
  c = '\n' ∧ before = some '\x7d' ∧ Token.lineStart <+: rest

/-- How often a text is cut. -/
def cuts (before : Option Char) (text : List Char) : Nat := (cutLines before text).2.length

theorem cutLines_of_isCut {before : Option Char} {c : Char} {rest : List Char}
    (h : IsCut before c rest) :
    cutLines before (c :: rest) =
      ([], (cutLines (some c) rest).1 :: (cutLines (some c) rest).2) := by
  have hcut : c = '\n' ∧ before = some '\x7d' ∧ Token.lineStart.isPrefixOf rest = true :=
    ⟨h.1, h.2.1, List.isPrefixOf_iff_prefix.2 h.2.2⟩
  simp only [cutLines, if_pos hcut]

theorem cutLines_of_not_isCut {before : Option Char} {c : Char} {rest : List Char}
    (h : ¬ IsCut before c rest) :
    cutLines before (c :: rest) =
      (c :: (cutLines (some c) rest).1, (cutLines (some c) rest).2) := by
  have hcut : ¬ (c = '\n' ∧ before = some '\x7d' ∧ Token.lineStart.isPrefixOf rest = true) :=
    fun hc => h ⟨hc.1, hc.2.1, List.isPrefixOf_iff_prefix.1 hc.2.2⟩
  simp only [cutLines, if_neg hcut]

theorem cuts_of_isCut {before : Option Char} {c : Char} {rest : List Char}
    (h : IsCut before c rest) : cuts before (c :: rest) = cuts (some c) rest + 1 := by
  rw [cuts, cutLines_of_isCut h, List.length_cons, cuts]

theorem cuts_le_cuts_cons (before : Option Char) (c : Char) (rest : List Char) :
    cuts (some c) rest ≤ cuts before (c :: rest) := by
  by_cases h : IsCut before c rest
  · rw [cuts_of_isCut h]
    exact Nat.le_succ _
  · exact Nat.le_of_eq (by rw [cuts, cuts, cutLines_of_not_isCut h])

/-- The last character of a text, or the one before it. -/
theorem getLast?_cons_or (before : Option Char) (c : Char) (text : List Char) :
    (c :: text).getLast?.or before = text.getLast?.or (some c) := by
  rw [List.getLast?_cons]
  cases text.getLast? <;> rfl

/-- Text without a cut in it, in view of what follows, goes to the first line. -/
theorem cutLines_append {before : Option Char} {text rest : List Char}
    (h : ∀ front c back, text = front ++ c :: back →
      ¬ IsCut (front.getLast?.or before) c (back ++ rest)) :
    cutLines before (text ++ rest) =
      (text ++ (cutLines (text.getLast?.or before) rest).1,
        (cutLines (text.getLast?.or before) rest).2) := by
  induction text generalizing before with
  | nil => rfl
  | cons c text ih =>
    have hc : ¬ IsCut before c (text ++ rest) := h [] c text rfl
    have hrest := @ih (some c) fun front d back ht => by
      have hd := h (c :: front) d back (by rw [ht]; rfl)
      rwa [getLast?_cons_or] at hd
    rw [List.cons_append, cutLines_of_not_isCut hc, hrest, getLast?_cons_or]
    rfl

theorem cuts_le_cuts_append (before : Option Char) (text rest : List Char) :
    cuts (text.getLast?.or before) rest ≤ cuts before (text ++ rest) := by
  induction text generalizing before with
  | nil => exact Nat.le_refl _
  | cons c text ih =>
    rw [getLast?_cons_or]
    exact Nat.le_trans (ih (some c)) (cuts_le_cuts_cons before c (text ++ rest))

/-- A cut in the text counts. -/
theorem cuts_lt_cuts_append {before : Option Char} {front back rest : List Char} {c : Char}
    (h : IsCut (front.getLast?.or before) c (back ++ rest)) :
    cuts ((front ++ c :: back).getLast?.or before) rest <
      cuts before (front ++ c :: back ++ rest) := by
  have hback := cuts_le_cuts_append (some c) back rest
  have hfront := cuts_le_cuts_append before front (c :: (back ++ rest))
  have hlast : (front ++ c :: back).getLast?.or before = back.getLast?.or (some c) := by
    rw [List.getLast?_append, List.getLast?_cons]
    cases back.getLast? <;> rfl
  rw [cuts_of_isCut h] at hfront
  rw [hlast, List.append_assoc, List.cons_append]
  omega

/-! ## Cuts in a line -/

theorem prefix_of_prefix_append_cons {xs ys zs : List Char} {c : Char} (hc : c ∉ xs)
    (h : xs <+: ys ++ c :: zs) : xs <+: ys := by
  rcases Nat.le_total xs.length ys.length with hl | hl
  · exact List.prefix_of_prefix_length_le h (List.prefix_append _ _) hl
  · obtain ⟨tail, rfl⟩ := List.prefix_of_prefix_length_le (List.prefix_append ys (c :: zs)) h hl
    rw [List.prefix_append_right_inj] at h
    cases tail with
    | nil => simp
    | cons d tail =>
      obtain ⟨rfl, _⟩ := List.cons_prefix_cons.1 h
      exact absurd (List.mem_append_right ys List.mem_cons_self) hc

/-- A line is cut only inside its text, and only at a boundary that stands there as a
whole: it cannot begin before the text, nor go on after it. -/
theorem Token.lineBoundary_infix_of_isCut {t : Token} {before : Option Char}
    {front back rest : List Char} {c : Char} (ht : t.line = front ++ c :: back)
    (hb : before ≠ some '\x7d') (h : IsCut (front.getLast?.or before) c (back ++ rest)) :
    lineBoundary <:+: t.text := by
  obtain ⟨rfl, hfront, hstart⟩ := h
  have hbrace : front.getLast? = some '\x7d' := by
    cases hl : front.getLast? with
    | none => rw [hl] at hfront; exact absurd hfront hb
    | some d => rw [hl] at hfront; exact hfront
  obtain ⟨front, rfl⟩ := List.getLast?_eq_some_iff.1 hbrace
  rw [line_eq] at ht
  cases List.eq_nil_or_concat back with
  | inl hnil =>
    rw [hnil] at ht
    obtain ⟨_, hlast⟩ := List.append_inj' ht rfl
    exact absurd (List.cons.inj hlast).1 (by decide)
  | inr hconcat =>
    obtain ⟨back, d, rfl⟩ := hconcat
    rw [List.concat_eq_append, ← List.cons_append, ← List.append_assoc] at ht
    obtain ⟨ht, hlast⟩ := List.append_inj' ht rfl
    rw [List.concat_eq_append, ← hlast, List.append_assoc, List.singleton_append] at hstart
    obtain ⟨tail, rfl⟩ := prefix_of_prefix_append_cons brace_not_mem_lineStart hstart
    have hsplit : t.lead ++ t.text = front ++ (lineBoundary ++ tail) := by
      rw [ht]
      simp [lineBoundary]
    rcases List.append_eq_append_iff.1 hsplit with ⟨text, _, htext⟩ | ⟨text, hlead, htext⟩
    · exact ⟨text, tail, by rw [htext, List.append_assoc]⟩
    · -- What is left of the lead is empty, since it would begin with a brace.
      cases text with
      | nil => exact ⟨[], tail, by simpa using htext⟩
      | cons e text =>
        obtain ⟨rfl, _⟩ := List.cons.inj htext
        refine absurd ?_ t.brace_not_mem_lead
        rw [hlead]
        exact List.mem_append_right front List.mem_cons_self

/-- A boundary in the text of a token is a cut in its line. -/
theorem Token.cuts_lt_of_lineBoundary_infix {t : Token} (h : lineBoundary <:+: t.text)
    (before : Option Char) (rest : List Char) :
    cuts (some '\x7d') rest < cuts before (t.line ++ rest) := by
  obtain ⟨front, back, ht⟩ := h
  have hline : t.line =
      (t.lead ++ front ++ ['\x7d']) ++ '\n' :: (lineStart ++ back ++ ['\x7d']) := by
    rw [line_eq, ← ht]
    simp [lineBoundary]
  have hcut : IsCut ((t.lead ++ front ++ ['\x7d']).getLast?.or before) '\n'
      (lineStart ++ back ++ ['\x7d'] ++ rest) := by
    refine ⟨rfl, ?_, ?_⟩
    · rw [List.getLast?_concat]
      rfl
    · simp [List.append_assoc]
  have hlt := cuts_lt_cuts_append hcut
  rwa [← hline, getLast?_line] at hlt

/-! ## Dumps -/

theorem isCut_dump (u : Token) (rest : List Token) :
    IsCut (some '\x7d') '\n' (dump (u :: rest)) := by
  refine ⟨rfl, rfl, ?_⟩
  cases rest with
  | nil =>
    rw [dump_singleton]
    simpa using u.lineStart_prefix_line []
  | cons v rest =>
    rw [dump_cons_cons]
    exact u.lineStart_prefix_line _

/-- A line whose text holds no boundary is one part, whatever follows. -/
theorem Token.cutLines_line {t : Token} {before : Option Char} (hb : before ≠ some '\x7d')
    (ht : ¬ lineBoundary <:+: t.text) (rest : List Char) :
    cutLines before (t.line ++ rest) =
      (t.line ++ (cutLines (some '\x7d') rest).1, (cutLines (some '\x7d') rest).2) := by
  have happend := @cutLines_append before t.line rest
    fun _ _ _ hline hcut => ht (lineBoundary_infix_of_isCut hline hb hcut)
  rwa [getLast?_line] at happend

/-- Without boundaries in the texts, the parts of a dump are its lines. -/
theorem cutLines_dump {t : Token} {rest : List Token} {before : Option Char}
    (hb : before ≠ some '\x7d') (h : ∀ u ∈ t :: rest, ¬ lineBoundary <:+: u.text) :
    cutLines before (dump (t :: rest)) = (t.line, rest.map Token.line) := by
  have ht := h t List.mem_cons_self
  induction rest generalizing t before with
  | nil =>
    have hline := Token.cutLines_line hb ht []
    rw [List.append_nil] at hline
    rw [dump_singleton, hline]
    simp [cutLines]
  | cons u rest ih =>
    have hrest : ∀ v ∈ u :: rest, ¬ lineBoundary <:+: v.text := fun v hv =>
      h v (List.mem_cons_of_mem t hv)
    rw [dump_cons_cons, Token.cutLines_line hb ht, cutLines_of_isCut (isCut_dump u rest),
      ih (by decide) hrest (hrest u List.mem_cons_self), List.append_nil]
    rfl

/-! A boundary in a text makes one part too many. -/

theorem cuts_dump_cons (t u : Token) (rest : List Token) (before : Option Char) :
    cuts (some '\n') (dump (u :: rest)) + 1 ≤ cuts before (dump (t :: u :: rest)) := by
  have hline := cuts_le_cuts_append before t.line ('\n' :: dump (u :: rest))
  rw [Token.getLast?_line, Option.some_or, cuts_of_isCut (isCut_dump u rest)] at hline
  rwa [dump_cons_cons]

theorem length_le_cuts_dump (t : Token) (rest : List Token) (before : Option Char) :
    rest.length ≤ cuts before (dump (t :: rest)) := by
  induction rest generalizing t before with
  | nil => exact Nat.zero_le _
  | cons u rest ih =>
    have hrest := ih u (some '\n')
    have hcons := cuts_dump_cons t u rest before
    rw [List.length_cons]
    omega

theorem length_lt_cuts_dump {t : Token} {rest : List Token} (before : Option Char)
    (h : ∃ u ∈ t :: rest, lineBoundary <:+: u.text) :
    rest.length < cuts before (dump (t :: rest)) := by
  obtain ⟨v, hv, hm⟩ := h
  induction rest generalizing t before with
  | nil =>
    obtain rfl := List.mem_singleton.1 hv
    have hlt := Token.cuts_lt_of_lineBoundary_infix hm before []
    rw [List.append_nil] at hlt
    rw [dump_singleton, List.length_nil]
    exact Nat.zero_lt_of_lt hlt
  | cons u rest ih =>
    rw [List.length_cons]
    rcases List.mem_cons.1 hv with rfl | hv
    · have hlt := Token.cuts_lt_of_lineBoundary_infix hm before ('\n' :: dump (u :: rest))
      have hle := length_le_cuts_dump u rest (some '\n')
      rw [cuts_of_isCut (isCut_dump u rest), ← dump_cons_cons] at hlt
      omega
    · have hrest := ih (some '\n') hv
      have hcons := cuts_dump_cons t u rest before
      omega

/-! ## Reading -/

theorem mapM_ofLine?_map_line (tokens : List Token) :
    (tokens.map Token.line).mapM Token.ofLine? = some tokens := by
  induction tokens with
  | nil => rfl
  | cons t tokens ih => simp [List.mapM_cons, Token.ofLine?_line, ih]

theorem length_of_mapM_ofLine? {lines : List (List Char)} {tokens : List Token}
    (h : lines.mapM Token.ofLine? = some tokens) : tokens.length = lines.length := by
  induction lines generalizing tokens with
  | nil => cases h; rfl
  | cons line lines ih =>
    rw [List.mapM_cons] at h
    obtain ⟨t, _, h⟩ := Option.bind_eq_some_iff.1 h
    obtain ⟨rest, hrest, h⟩ := Option.bind_eq_some_iff.1 h
    cases h
    rw [List.length_cons, List.length_cons, ih hrest]

theorem readDump?_dump_cons (t : Token) (rest : List Token) :
    readDump? (dump (t :: rest)) =
      ((cutLines none (dump (t :: rest))).1 :: (cutLines none (dump (t :: rest))).2).mapM
        Token.ofLine? := by
  have hne : dump (t :: rest) ≠ [] := fun h => by cases dump_eq_nil_iff.1 h
  simp only [readDump?, if_neg hne]

/-- A dump is read back exactly if no text holds the boundary of two lines. -/
theorem readDump?_dump_eq_some_iff (tokens : List Token) :
    readDump? (dump tokens) = some tokens ↔ ∀ t ∈ tokens, ¬ lineBoundary <:+: t.text := by
  cases tokens with
  | nil => simp [readDump?]
  | cons t rest =>
    rw [readDump?_dump_cons]
    constructor
    · intro h u hu hm
      have hlength := length_of_mapM_ofLine? h
      have hlt := length_lt_cuts_dump none ⟨u, hu, hm⟩
      rw [List.length_cons, List.length_cons] at hlength
      rw [cuts] at hlt
      omega
    · intro h
      rw [cutLines_dump (by decide) h]
      exact mapM_ofLine?_map_line (t :: rest)

theorem eq_of_dump_eq {ts us : List Token} (ht : ∀ t ∈ ts, ¬ lineBoundary <:+: t.text)
    (hu : ∀ u ∈ us, ¬ lineBoundary <:+: u.text) (h : dump ts = dump us) : ts = us := by
  have hread := (readDump?_dump_eq_some_iff ts).2 ht
  rw [h, (readDump?_dump_eq_some_iff us).2 hu] at hread
  exact (Option.some.inj hread).symm

/-- Dumps of tokens without newlines have a line for each token. -/
theorem splitOn_dump {tokens : List Token} (hne : tokens ≠ []) (h : ∀ t ∈ tokens, '\n' ∉ t.text) :
    (dump tokens).splitOn '\n' = tokens.map Token.line := by
  refine List.splitOn_intercalate '\n' (fun line hline => ?_) (by simpa using hne)
  obtain ⟨t, ht, rfl⟩ := List.mem_map.1 hline
  exact Token.newline_not_mem_line (h t ht)

/-- A dump is read back as its tokens exactly if no text holds the boundary of two lines;
the parts that it is cut into are then the lines. Such dumps differ if their tokens do.
Tokens without newlines fill as many lines as they are. -/
theorem dump_decodable :
    (∀ tokens, readDump? (dump tokens) = some tokens ↔
      ∀ t ∈ tokens, ¬ lineBoundary <:+: t.text) ∧
    (∀ t rest, (∀ u ∈ t :: rest, ¬ lineBoundary <:+: u.text) →
      cutLines none (dump (t :: rest)) = (t.line, rest.map Token.line)) ∧
    (∀ ts us : List Token, (∀ t ∈ ts, ¬ lineBoundary <:+: t.text) →
      (∀ u ∈ us, ¬ lineBoundary <:+: u.text) → (dump ts = dump us ↔ ts = us)) ∧
    ∀ tokens : List Token, tokens ≠ [] → (∀ t ∈ tokens, '\n' ∉ t.text) →
      (dump tokens).splitOn '\n' = tokens.map Token.line :=
  ⟨readDump?_dump_eq_some_iff, fun _ _ h => cutLines_dump (by decide) h,
    fun _ _ ht hu => ⟨eq_of_dump_eq ht hu, congrArg dump⟩, fun _ hne h => splitOn_dump hne h⟩

/-- A text that stops one character short of a boundary is read back, though the brace and
the newline after it are there. With the space and a label it is not. -/
theorem readDump?_almost_boundary :
    readDump? (dump [⟨.stringConstant, '\x7d' :: '\n' :: "Token\x7bType:".toList⟩,
        ⟨.statementEnd, []⟩]) =
      some [⟨.stringConstant, '\x7d' :: '\n' :: "Token\x7bType:".toList⟩, ⟨.statementEnd, []⟩] ∧
    readDump? (dump [⟨.stringConstant, '\x7d' :: '\n' :: "Token\x7bType: EndOfLine".toList⟩]) ≠
      some [⟨.stringConstant, '\x7d' :: '\n' :: "Token\x7bType: EndOfLine".toList⟩] ∧
    cutLines none (dump [⟨.stringConstant, '\x7d' :: '\n' :: "Token\x7bType:".toList⟩]) =
      (Token.line ⟨.stringConstant, '\x7d' :: '\n' :: "Token\x7bType:".toList⟩, []) ∧
    dump [⟨.identifier, ['x']⟩, ⟨.statementEnd, []⟩] ≠
      dump [⟨.stringConstant, '\x7d' :: '\n' :: "Token\x7bType:".toList⟩] ∧
    (dump [⟨.identifier, ['x']⟩, ⟨.statementEnd, []⟩]).splitOn '\n' =
      [Token.line ⟨.identifier, ['x']⟩, Token.line ⟨.statementEnd, []⟩] := by
  obtain ⟨hread, hcut, heq, hlines⟩ := dump_decodable
  have halmost : ∀ t ∈ [(⟨.stringConstant, '\x7d' :: '\n' :: "Token\x7bType:".toList⟩ : Token)],
      ¬ lineBoundary <:+: t.text := by
    intro t ht
    rw [List.mem_singleton.1 ht]
    exact not_infix_of_length_lt (by decide)
  have hplain : ∀ t ∈ [(⟨.identifier, ['x']⟩ : Token), ⟨.statementEnd, []⟩],
      ¬ lineBoundary <:+: t.text := by
    intro t ht
    rcases List.mem_cons.1 ht with rfl | ht
    · exact not_infix_of_length_lt (by decide)
    · rw [List.mem_singleton.1 ht]
      exact not_infix_of_length_lt (by decide)
  refine ⟨(hread _).2 ?_, fun h => ?_, hcut _ _ halmost, fun h => ?_, hlines _ (by simp) (by simp)⟩
  · intro t ht
    rcases List.mem_cons.1 ht with rfl | ht
    · exact not_infix_of_length_lt (by decide)
    · rw [List.mem_singleton.1 ht]
      exact not_infix_of_length_lt (by decide)
  · exact (hread _).1 h _ List.mem_cons_self ⟨[], "EndOfLine".toList, by decide⟩
  · exact absurd ((heq _ _ hplain halmost).1 h) (by simp)

end Ceng
