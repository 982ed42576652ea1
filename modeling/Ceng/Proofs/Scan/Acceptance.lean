import Ceng.Proofs.Scan.Reading

/-!
# What a scan accepts and where it fails

A scan succeeds exactly on the sources that are made of pieces of the grammar,
and fails exactly on those in which a malformed lexeme follows such pieces. In
both cases the pieces are determined by the source. Lines are counted here as
the run counts them, which is not the number of physical lines.
-/
namespace Ceng

theorem Reads.unique {source : List Char} {ps qs : List Piece} (hp : Reads source ps [])
    (hq : Reads source qs []) : ps = qs := by
  have hps : Reading source ps [] none := ⟨hp, rfl⟩
  have hqs : Reading source qs [] none := ⟨hq, rfl⟩
  exact (hps.unique hqs).1

/-- The tokens of a source are those of its only reading, and there are no tokens
if no reading reaches the end. -/
theorem scan_eq_ok_iff_reads (source : List Char) :
    (∀ tokens, scan source = .ok tokens ↔
      ∃ pieces, Reads source pieces [] ∧ tokensOf pieces = tokens) ∧
    ∀ ps qs, Reads source ps [] → Reads source qs [] → ps = qs := by
  refine ⟨fun tokens => ⟨reads_of_scan_eq_ok, ?_⟩, fun ps qs hp hq => hp.unique hq⟩
  rintro ⟨pieces, hr, rfl⟩
  exact hr.scan_eq_ok

/-- The star that opens the comment does not close it, and the sign belongs to the
number because no other minus stands before it. -/
theorem scan_slash_star_slash :
    Reads ['/', '*', '/', '*', '/', 'i', 'f', '-', '7']
      [.blockComment ['/'], .word ['i', 'f'], .number true ['7']] [] ∧
    scan ['/', '*', '/', '*', '/', 'i', 'f', '-', '7'] =
      .ok [⟨.keyword, ['i', 'f']⟩, ⟨.intConstant, ['-', '7']⟩] ∧
    ∀ pieces, Reads ['/', '*', '/', '*', '/', 'i', 'f', '-', '7'] pieces [] →
      pieces = [.blockComment ['/'], .word ['i', 'f'], .number true ['7']] := by
  have hread : Reads ['/', '*', '/', '*', '/', 'i', 'f', '-', '7']
      [.blockComment ['/'], .word ['i', 'f'], .number true ['7']] [] := by
    -- A lone slash cannot hold the two characters that would close the comment early.
    have hcomment : (Piece.blockComment ['/']).WellFormed :=
      fun h => absurd h.length_le (by simp)
    refine .piece hcomment ?_ rfl (.piece ?_ ?_ rfl (.piece ?_ ?_ rfl (.stop _)))
    all_goals simp [Piece.WellFormed, Piece.EndsBefore, Piece.extendsBy, isWordStart, isWordChar,
      maxWordLength, maxDigits]
  obtain ⟨hscan, hunique⟩ := scan_eq_ok_iff_reads ['/', '*', '/', '*', '/', 'i', 'f', '-', '7']
  exact ⟨hread, (hscan _).2 ⟨_, hread, by decide⟩, fun pieces h => hunique _ _ h hread⟩

/-! ## Failure -/

/-- The five kinds of malformed lexeme exclude each other, and no reading can stop
at one of them in two places. -/
theorem Reads.unique_of_malformed {source rest rest' : List Char} {ps qs : List Piece}
    {fault fault' : Fault} (hp : Reads source ps rest) (hm : Malformed fault rest)
    (hq : Reads source qs rest') (hm' : Malformed fault' rest') :
    qs = ps ∧ rest' = rest ∧ fault' = fault := by
  have hps : Reading source ps rest (some fault) := ⟨hp, hm⟩
  have hqs : Reading source qs rest' (some fault') := ⟨hq, hm'⟩
  obtain ⟨hpieces, hrest, hfault⟩ := hqs.unique hps
  exact ⟨hpieces, hrest, Option.some.inj hfault⟩

theorem Fault.detail_eq_iff {f g : Fault} : f.detail = g.detail ↔ f = g := by
  refine ⟨fun h => ?_, congrArg Fault.detail⟩
  rcases f with _ | (_ | _) | _ | _ <;> rcases g with _ | (_ | _) | _ | _ <;>
    first
    | rfl
    | exact absurd h (by decide)

/-- A malformed lexeme that is neither a word nor a number is a literal, and its
first character says which one. -/
theorem Malformed.literal_of_head {fault : Fault} {rest : List Char} {c : Char}
    (h : Malformed fault rest) (hc : rest.head? = some c) (hw : isWordChar c = false)
    (hm : c ≠ '-') : (fault = .openString ∧ c = '"') ∨ (fault = .openComment ∧ c = '/') := by
  cases h with
  | @word text rest hh _ _ _ =>
    obtain ⟨d, hd, hs⟩ := hh
    have hdc : d = c := by simpa [Option.mem_def.1 hd] using hc
    rw [← hdc, isWordChar_of_isWordStart hs] at hw
    cases hw
  | @number negative digits rest hd hl _ =>
    cases digits with
    | nil => simp at hl
    | cons d digits =>
      cases negative with
      | true => exact absurd (Option.some.inj hc).symm hm
      | false =>
        have hdc : d = c := Option.some.inj hc
        rw [← hdc, isWordChar_of_isDigit (hd d (by simp))] at hw
        cases hw
  | string _ => exact .inl ⟨rfl, (Option.some.inj hc).symm⟩
  | comment _ => exact .inr ⟨rfl, (Option.some.inj hc).symm⟩

theorem Malformed.head_quote_iff {fault : Fault} {rest : List Char} (h : Malformed fault rest) :
    rest.head? = some '"' ↔ fault = .openString := by
  constructor
  · intro hc
    obtain ⟨hf, _⟩ | ⟨_, hq⟩ := h.literal_of_head hc (by decide) (by decide)
    · exact hf
    · exact absurd hq (by decide)
  · rintro rfl; cases h; rfl

theorem Malformed.head_slash_iff {fault : Fault} {rest : List Char} (h : Malformed fault rest) :
    rest.head? = some '/' ↔ fault = .openComment := by
  constructor
  · intro hc
    obtain ⟨_, hq⟩ | ⟨hf, _⟩ := h.literal_of_head hc (by decide) (by decide)
    · exact absurd hq (by decide)
    · exact hf
  · rintro rfl; cases h; rfl

/-- A scan fails exactly if a malformed lexeme follows well-formed pieces. These
pieces are the steps of the run, the cursor is left after them, and neither the
place nor the kind of the fault could be another one. -/
theorem scan_eq_error_iff_malformed (source : List Char) :
    (∀ fault line, scan source = .error ⟨fault, line⟩ ↔
      ∃ pieces rest, Reads source pieces rest ∧ Malformed fault rest ∧
        line = 1 + linesOf pieces + fault.lines rest) ∧
    ∀ pieces rest fault, Reads source pieces rest → Malformed fault rest →
      source = textOf pieces ++ rest ∧
      (Run.ofSource source).steps = stepsFrom 0 1 pieces ∧
      (Run.ofSource source).pos = (textOf pieces).length ∧
      (fault.detail = "string constant not terminated" ↔ rest.head? = some '"') ∧
      (fault.detail = "multiline comment not terminated" ↔ rest.head? = some '/') ∧
      ∀ pieces' rest' fault', Reads source pieces' rest' → Malformed fault' rest' →
        pieces' = pieces ∧ rest' = rest ∧ fault' = fault := by
  constructor
  · intro fault line
    refine ⟨reads_of_scan_eq_error, ?_⟩
    rintro ⟨pieces, rest, hr, hm, rfl⟩
    exact hr.scan_eq_error hm
  · intro pieces rest fault hr hm
    have hreading : Reading source pieces rest (some fault) := ⟨hr, hm⟩
    rw [hreading.ofSource_eq, hm.head_quote_iff, hm.head_slash_iff]
    exact ⟨hr.source_eq, rfl, rfl, Fault.detail_eq_iff (g := .openString),
      Fault.detail_eq_iff (g := .openComment), fun _ _ _ => hr.unique_of_malformed hm⟩

/-- The minus signs pair up from the left, so the third one belongs to the digits. -/
theorem scan_three_minus_long_number :
    scan ['-', '-', '-', '1', '2', '3', '4', '5', '6', '7', '8', '9', '0', '1', '"'] =
      .error ⟨.numberTooLong true, 1⟩ ∧
    (Run.ofSource
      ['-', '-', '-', '1', '2', '3', '4', '5', '6', '7', '8', '9', '0', '1', '"']).pos = 2 ∧
    ∀ fault rest, Malformed fault rest →
      Reads ['-', '-', '-', '1', '2', '3', '4', '5', '6', '7', '8', '9', '0', '1', '"']
        [.operator .decrement] rest → fault = .numberTooLong true := by
  have hread : Reads ['-', '-', '-', '1', '2', '3', '4', '5', '6', '7', '8', '9', '0', '1', '"']
      [.operator .decrement] ['-', '1', '2', '3', '4', '5', '6', '7', '8', '9', '0', '1', '"'] :=
    .piece trivial (fun _ _ => rfl) rfl (.stop _)
  have hm : Malformed (.numberTooLong true)
      ['-', '1', '2', '3', '4', '5', '6', '7', '8', '9', '0', '1', '"'] :=
    @Malformed.number true ['1', '2', '3', '4', '5', '6', '7', '8', '9', '0', '1'] ['"']
      (by simp) (by simp [maxDigits]) (by simp)
  obtain ⟨hscan, hplace⟩ := scan_eq_error_iff_malformed
    ['-', '-', '-', '1', '2', '3', '4', '5', '6', '7', '8', '9', '0', '1', '"']
  obtain ⟨_, _, hpos, _, _, hunique⟩ := hplace _ _ _ hread hm
  exact ⟨(hscan _ _).2 ⟨_, _, hread, hm, rfl⟩, hpos,
    fun fault rest hm' hread' => (hunique _ _ _ hread' hm').2.2⟩

end Ceng
