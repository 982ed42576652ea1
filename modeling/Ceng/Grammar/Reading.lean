import Ceng.Grammar
import Ceng.Text.Span

/-!
# Reading follows the grammar

`readPiece` and the grammar agree: what is read is a piece of the grammar that
ends where the rest begins, every such piece is read, and reading fails exactly
on malformed text. The statements are about one piece; whole sources are the
matter of other modules.
-/
namespace Ceng

/-! ## The reader for a first character -/

theorem isAlpha_eq_false_of_isDigit {c : Char} (h : c.isDigit = true) : c.isAlpha = false := by
  have hd : 48 ≤ c.toNat ∧ c.toNat ≤ 57 := Char.isDigit_iff_toNat.1 h
  have hu : c.isUpper = false := by
    refine decide_eq_false fun hc => ?_
    have hA : 65 ≤ c.toNat := UInt32.le_iff_toNat_le.1 hc.1
    omega
  have hl : c.isLower = false := by
    refine Bool.and_eq_false_iff.2 (.inl (decide_eq_false fun hc => ?_))
    have ha : 97 ≤ c.toNat := UInt32.le_iff_toNat_le.1 hc
    omega
  exact Bool.or_eq_false_iff.2 ⟨hu, hl⟩

theorem isWordStart_eq_false_of_isDigit {c : Char} (h : c.isDigit = true) :
    isWordStart c = false := by
  simp only [isWordStart, isAlpha_eq_false_of_isDigit h, Bool.false_or, beq_eq_false_iff_ne]
  rintro rfl
  exact absurd h (by decide)

theorem isSignificant_of_isWordChar {c : Char} (h : isWordChar c = true) :
    isSignificant c = true := by
  simp [isSignificant, h]

theorem readPiece_of_isWordStart {c : Char} (h : isWordStart c = true) (rest : List Char) :
    readPiece c rest = readWord (c :: rest) := by
  unfold readPiece
  split
  case h_15 => simp [h]
  all_goals exact absurd h (by decide)

theorem readPiece_of_isDigit {c : Char} (h : c.isDigit = true) (rest : List Char) :
    readPiece c rest = readNumber false (c :: rest) := by
  unfold readPiece
  split
  case h_15 => simp [h, isWordStart_eq_false_of_isDigit h]
  all_goals exact absurd h (by decide)

theorem isSkippable_of_not_mem {c : Char} (hw : isWordStart c = false) (hd : c.isDigit = false)
    (hp : c ∉ [';', '-', '*', '/', '+', '=', '<', '>', '(', ')', '\x7b', '\x7d', '"'])
    (hn : c ≠ '\n') : isSkippable c = true := by
  simp only [isWordStart, Bool.or_eq_false_iff] at hw
  simp only [isSkippable, isSignificant, isWordChar, Char.isAlphanum, hw.1, hw.2, hd, Bool.or_false,
    Bool.false_or]
  simpa [hn] using hp

theorem readPiece_of_isSkippable {c : Char} (h : isSkippable c = true) (rest : List Char) :
    readPiece c rest = .ok (.skipped c, rest) := by
  have hw : isWordChar c = false := by
    rw [Bool.eq_false_iff]; intro hc; simp [isSkippable, isSignificant_of_isWordChar hc] at h
  have hs : isWordStart c = false := by
    rw [Bool.eq_false_iff]; intro hc; simp [isWordChar_of_isWordStart hc] at hw
  have hd : c.isDigit = false := by
    rw [Bool.eq_false_iff]; intro hc; simp [isWordChar_of_isDigit hc] at hw
  unfold readPiece
  split
  case h_15 => simp [hs, hd]
  all_goals exact absurd h (by decide)

/-! ## The end of a block comment -/

private theorem not_prefix_of_ne {c : Char} {rest : List Char}
    (h : ∀ r, c = '*' → rest = '/' :: r → False) : ¬ ['*', '/'] <+: c :: rest := by
  rintro ⟨r, hr⟩
  simp only [List.cons_append, List.nil_append, List.cons.injEq] at hr
  exact h r hr.1.symm hr.2.symm

theorem splitCommentEnd?_eq_none_iff {source : List Char} :
    splitCommentEnd? source = none ↔ ¬ ['*', '/'] <:+: source := by
  fun_induction splitCommentEnd? source with
  | case1 => simp
  | case2 rest => simpa using (List.prefix_append ['*', '/'] rest).isInfix
  | case3 c rest hne ih =>
    rw [Option.map_eq_none_iff, ih, List.infix_cons_iff]
    simp [not_prefix_of_ne hne]

theorem splitCommentEnd?_eq_some_iff {source body after : List Char} :
    splitCommentEnd? source = some (body, after) ↔
      source = body ++ '*' :: '/' :: after ∧ ¬ ['*', '/'] <:+: body := by
  fun_induction splitCommentEnd? source generalizing body with
  | case1 => simp
  | case2 rest =>
    constructor
    · intro h; cases h; simp
    · rintro ⟨h, hb⟩
      cases body with
      | nil => cases h; rfl
      | cons b body =>
        cases body with
        | nil => simp at h
        | cons b' body =>
          simp only [List.cons_append, List.cons.injEq] at h
          exact absurd ⟨[], body, by simp [← h.1, ← h.2.1]⟩ hb
  | case3 c rest hne ih =>
    constructor
    · intro h
      obtain ⟨⟨b, a⟩, hb, he⟩ := Option.map_eq_some_iff.1 h
      cases he
      obtain ⟨hr, hn⟩ := ih.1 hb
      refine ⟨by simp [hr], fun hi => ?_⟩
      rcases List.infix_cons_iff.1 hi with hp | hi
      · obtain ⟨r, hp⟩ := hp
        simp only [List.cons_append, List.nil_append, List.cons.injEq] at hp
        exact hne (r ++ '*' :: '/' :: after) hp.1.symm (by rw [hr, ← hp.2]; simp)
      · exact hn hi
    · rintro ⟨h, hb⟩
      cases body with
      | nil =>
        simp only [List.nil_append, List.cons.injEq] at h
        exact (hne after h.1 h.2).elim
      | cons b body =>
        simp only [List.cons_append, List.cons.injEq] at h
        have := ih.2 ⟨h.2, fun hi => hb (List.infix_cons_iff.2 (.inr hi))⟩
        simp [this, h.1]

/-! ## What is read is of the grammar -/

theorem readWord_sound {c : Char} {rest after : List Char} {p : Piece} (hc : isWordStart c = true)
    (h : readWord (c :: rest) = .ok (p, after)) : p.WellFormed ∧ p.EndsBefore after := by
  simp only [readWord] at h
  split at h
  · simp at h
  · next hl =>
    cases h
    refine ⟨⟨⟨c, ?_, hc⟩, fun d hd => mem_takeWhile_pos hd, by omega⟩,
      fun d hd => head?_dropWhile_neg hd⟩
    simp [isWordChar_of_isWordStart hc]

theorem readNumber_sound {negative : Bool} {c : Char} {rest after : List Char} {p : Piece}
    (hc : c.isDigit = true) (h : readNumber negative (c :: rest) = .ok (p, after)) :
    p.WellFormed ∧ p.EndsBefore after := by
  simp only [readNumber] at h
  split at h
  · simp at h
  · next hl =>
    cases h
    refine ⟨⟨?_, fun d hd => mem_takeWhile_pos hd, by omega⟩, fun d hd => head?_dropWhile_neg hd⟩
    simp [hc]

theorem readPaired_sound {second : Char} {short long : Operator} {source after : List Char}
    {p : Piece} (hs : ∀ d, (Piece.operator short).extendsBy d = (d == second))
    (hl : ∀ d, (Piece.operator long).extendsBy d = false)
    (h : readPaired second short long source = (p, after)) : p.WellFormed ∧ p.EndsBefore after := by
  cases source with
  | nil => cases h; exact ⟨trivial, by simp [Piece.EndsBefore]⟩
  | cons c r =>
    simp only [readPaired] at h
    split at h
    · cases h; exact ⟨trivial, fun d _ => hl d⟩
    · next hc => cases h; exact ⟨trivial, by simp [Piece.EndsBefore, hs, hc]⟩

theorem readMinus_sound {source after : List Char} {p : Piece}
    (h : readMinus source = .ok (p, after)) : p.WellFormed ∧ p.EndsBefore after := by
  cases source with
  | nil => cases h; exact ⟨trivial, by simp [Piece.EndsBefore]⟩
  | cons c r =>
    simp only [readMinus] at h
    split at h
    · cases h; exact ⟨trivial, by simp [Piece.EndsBefore, Piece.extendsBy]⟩
    · next hc =>
      split at h
      · next hd => exact readNumber_sound hd h
      · next hd => cases h; exact ⟨trivial, by simp [Piece.EndsBefore, Piece.extendsBy, hc, hd]⟩

theorem readSlash_sound {source after : List Char} {p : Piece}
    (h : readSlash source = .ok (p, after)) : p.WellFormed ∧ p.EndsBefore after := by
  cases source with
  | nil => cases h; exact ⟨trivial, by simp [Piece.EndsBefore]⟩
  | cons c r =>
    simp only [readSlash] at h
    split at h
    · split at h
      · simp at h
      · next hb =>
        cases h
        exact ⟨(splitCommentEnd?_eq_some_iff.1 hb).2, fun _ _ => rfl⟩
    · next hs =>
      split at h
      · cases h
        refine ⟨fun hm => ?_, fun d hd => ?_⟩
        · simpa using mem_takeWhile_pos hm
        · exact head?_dropWhile_neg hd
      · next hd => cases h; exact ⟨trivial, by simp [Piece.EndsBefore, Piece.extendsBy, hs, hd]⟩

theorem readString_sound {source after : List Char} {p : Piece}
    (h : readString source = .ok (p, after)) : p.WellFormed ∧ p.EndsBefore after := by
  simp only [readString] at h
  split at h
  · simp at h
  · cases h
    refine ⟨fun hm => ?_, fun _ _ => rfl⟩
    simpa using mem_takeWhile_pos hm

theorem readPiece_sound {first : Char} {rest after : List Char} {p : Piece}
    (h : readPiece first rest = .ok (p, after)) : p.WellFormed ∧ p.EndsBefore after := by
  unfold readPiece at h
  split at h
  case h_2 => exact readMinus_sound h
  case h_4 => exact readSlash_sound h
  case h_5 => exact readPaired_sound (fun _ => rfl) (fun _ => rfl) (Except.ok.inj h)
  case h_6 => exact readPaired_sound (fun _ => rfl) (fun _ => rfl) (Except.ok.inj h)
  case h_7 => exact readPaired_sound (fun _ => rfl) (fun _ => rfl) (Except.ok.inj h)
  case h_8 => exact readPaired_sound (fun _ => rfl) (fun _ => rfl) (Except.ok.inj h)
  case h_13 => exact readString_sound h
  case h_15 =>
    split at h
    · next hw => exact readWord_sound hw h
    · next hw =>
      split at h
      · next hd => exact readNumber_sound hd h
      · next hd =>
        cases h
        refine ⟨isSkippable_of_not_mem (by simpa using hw) (by simpa using hd) ?_ (by assumption),
          fun _ _ => rfl⟩
        simp only [List.mem_cons, List.not_mem_nil, or_false, not_or]
        and_intros <;> assumption
  all_goals cases h; exact ⟨trivial, fun _ _ => rfl⟩

/-! ## All of the grammar is read -/

theorem readWord_complete {text after : List Char} (hw : (Piece.word text).WellFormed)
    (he : (Piece.word text).EndsBefore after) :
    readWord (text ++ after) = .ok (.word text, after) := by
  obtain ⟨_, ht, hl⟩ := hw
  simp only [readWord, takeWhile_append_stop ht he, dropWhile_append_stop ht he]
  rw [if_neg (by omega)]

theorem readNumber_complete {negative : Bool} {digits after : List Char}
    (hw : (Piece.number negative digits).WellFormed)
    (he : (Piece.number negative digits).EndsBefore after) :
    readNumber negative (digits ++ after) = .ok (.number negative digits, after) := by
  obtain ⟨_, ht, hl⟩ := hw
  simp only [readNumber, takeWhile_append_stop ht he, dropWhile_append_stop ht he]
  rw [if_neg (by omega)]

theorem readPaired_complete {second : Char} {short long : Operator} {after : List Char}
    (h : ∀ c ∈ after.head?, (c == second) = false) :
    readPaired second short long after = (.operator short, after) := by
  cases after with
  | nil => rfl
  | cons c r => simpa [readPaired] using h c (by simp)

theorem readMinus_complete {after : List Char}
    (he : (Piece.operator .minus).EndsBefore after) :
    readMinus after = .ok (.operator .minus, after) := by
  cases after with
  | nil => rfl
  | cons c r =>
    have hc : c ≠ '-' ∧ c.isDigit = false := by
      simpa [Piece.extendsBy] using he c (by simp)
    simp [readMinus, hc]

theorem readSlash_complete {after : List Char}
    (he : (Piece.operator .divide).EndsBefore after) :
    readSlash after = .ok (.operator .divide, after) := by
  cases after with
  | nil => rfl
  | cons c r =>
    have hc : c ≠ '*' ∧ c ≠ '/' := by
      simpa [Piece.extendsBy] using he c (by simp)
    simp [readSlash, hc]

theorem readString_complete {body : List Char} (hb : '"' ∉ body) (after : List Char) :
    readString (body ++ '"' :: after) = .ok (.string body, after) := by
  have ht : ∀ c ∈ body, (c != '"') = true := fun c hc => by
    simpa using ne_of_mem_of_not_mem hc hb
  have hr : ∀ c ∈ ('"' :: after).head?, (c != '"') = false := by simp
  simp only [readString, takeWhile_append_stop ht hr, dropWhile_append_stop ht hr]

theorem readBlockComment_complete {body : List Char} (hb : ¬ ['*', '/'] <:+: body)
    (after : List Char) :
    readSlash ('*' :: (body ++ '*' :: '/' :: after)) = .ok (.blockComment body, after) := by
  have h := splitCommentEnd?_eq_some_iff.2 (And.intro (Eq.refl (body ++ '*' :: '/' :: after)) hb)
  simp [readSlash, h]

theorem readLineComment_complete {body after : List Char} (hb : '\n' ∉ body)
    (he : (Piece.lineComment body).EndsBefore after) :
    readSlash ('/' :: (body ++ after)) = .ok (.lineComment body, after) := by
  have ht : ∀ c ∈ body, (c != '\n') = true := fun c hc => by
    simpa using ne_of_mem_of_not_mem hc hb
  have hr : ∀ c ∈ after.head?, (c != '\n') = false := he
  simp [readSlash, takeWhile_append_stop ht hr, dropWhile_append_stop ht hr]

theorem readPiece_operator_complete {op : Operator} {first : Char} {rest after : List Char}
    (he : (Piece.operator op).EndsBefore after) (h : op.text ++ after = first :: rest) :
    readPiece first rest = .ok (.operator op, after) := by
  cases op <;> cases h
  case plus => exact congrArg Except.ok (readPaired_complete he)
  case minus => exact readMinus_complete he
  case divide => exact readSlash_complete he
  case assign => exact congrArg Except.ok (readPaired_complete he)
  case less => exact congrArg Except.ok (readPaired_complete he)
  case greater => exact congrArg Except.ok (readPaired_complete he)
  all_goals rfl

/-- A well-formed piece that ends where the rest begins is read. -/
theorem readPiece_complete {p : Piece} {first : Char} {rest after : List Char}
    (hw : p.WellFormed) (he : p.EndsBefore after) (h : p.text ++ after = first :: rest) :
    readPiece first rest = .ok (p, after) := by
  cases p with
  | word text =>
    obtain ⟨c, hc, hs⟩ := hw.1
    cases text with
    | nil => simp at hc
    | cons d text =>
      cases h
      cases hc
      rw [readPiece_of_isWordStart hs]
      exact readWord_complete hw he
  | number negative digits =>
    cases digits with
    | nil => exact absurd rfl hw.1
    | cons d digits =>
      have hd : d.isDigit = true := hw.2.1 d (by simp)
      cases negative with
      | false =>
        cases h
        rw [readPiece_of_isDigit hd]
        exact readNumber_complete hw he
      | true =>
        cases h
        have hm : d ≠ '-' := by rintro rfl; exact absurd hd (by decide)
        have hn := readNumber_complete hw he
        rw [List.cons_append] at hn
        change readMinus (d :: (digits ++ after)) = _
        simp only [readMinus, if_neg hm, if_pos hd, hn]
  | operator op => exact readPiece_operator_complete he h
  | bracket b => cases b <;> cases h <;> rfl
  | statementEnd => cases h; rfl
  | string body =>
    simp only [Piece.text, List.cons_append, List.cons.injEq, List.append_assoc] at h
    rw [← h.1, ← h.2]
    exact readString_complete hw after
  | blockComment body =>
    simp only [Piece.text, List.cons_append, List.cons.injEq, List.append_assoc] at h
    rw [← h.1, ← h.2]
    exact readBlockComment_complete hw after
  | lineComment body =>
    simp only [Piece.text, List.cons_append, List.cons.injEq] at h
    rw [← h.1, ← h.2]
    exact readLineComment_complete hw he
  | newline => cases h; rfl
  | skipped c => cases h; exact readPiece_of_isSkippable hw after

/-- What is read is exactly the piece of the grammar at the front of the source. -/
theorem readPiece_eq_ok_iff {p : Piece} {first : Char} {rest after : List Char} :
    readPiece first rest = .ok (p, after) ↔
      p.WellFormed ∧ p.EndsBefore after ∧ first :: rest = p.text ++ after :=
  ⟨fun h => ⟨(readPiece_sound h).1, (readPiece_sound h).2, (readPiece_text h).symm⟩,
    fun ⟨hw, he, h⟩ => readPiece_complete hw he h.symm⟩

/-! ## Reading fails on malformed text -/

theorem readWord_error {c : Char} {rest : List Char} {f : Fault} (hc : isWordStart c = true)
    (h : readWord (c :: rest) = .error f) : Malformed f (c :: rest) := by
  simp only [readWord] at h
  split at h
  · next hl =>
    cases h
    rw [← List.takeWhile_append_dropWhile (p := isWordChar) (l := c :: rest)]
    refine .word ⟨c, ?_, hc⟩ (fun d hd => mem_takeWhile_pos hd) hl
      fun d hd => head?_dropWhile_neg hd
    simp [isWordChar_of_isWordStart hc]
  · simp at h

theorem readNumber_error {negative : Bool} {source : List Char} {f : Fault}
    (h : readNumber negative source = .error f) :
    Malformed f ((if negative then ['-'] else []) ++ source) := by
  simp only [readNumber] at h
  split at h
  · next hl =>
    cases h
    have hm := @Malformed.number negative _ (source.dropWhile Char.isDigit)
      (fun d hd => mem_takeWhile_pos hd) hl fun d hd => head?_dropWhile_neg hd
    rwa [List.append_assoc, List.takeWhile_append_dropWhile] at hm
  · simp at h

theorem readMinus_error {source : List Char} {f : Fault} (h : readMinus source = .error f) :
    Malformed f ('-' :: source) := by
  cases source with
  | nil => simp [readMinus] at h
  | cons c r =>
    simp only [readMinus] at h
    split at h
    · simp at h
    · split at h
      · simpa using readNumber_error h
      · simp at h

theorem readSlash_error {source : List Char} {f : Fault} (h : readSlash source = .error f) :
    Malformed f ('/' :: source) := by
  cases source with
  | nil => simp [readSlash] at h
  | cons c r =>
    simp only [readSlash] at h
    split at h
    · next hc =>
      split at h
      · next hb => cases h; exact hc ▸ .comment (splitCommentEnd?_eq_none_iff.1 hb)
      · simp at h
    · split at h <;> simp at h

theorem readString_error {source : List Char} {f : Fault} (h : readString source = .error f) :
    Malformed f ('"' :: source) := by
  simp only [readString] at h
  split at h
  · next hd =>
    cases h
    refine .string fun hm => ?_
    have ht := List.takeWhile_append_dropWhile (p := (· != '"')) (l := source)
    rw [hd, List.append_nil] at ht
    rw [← ht] at hm
    simpa using mem_takeWhile_pos hm
  · simp at h

theorem readPiece_error {first : Char} {rest : List Char} {f : Fault}
    (h : readPiece first rest = .error f) : Malformed f (first :: rest) := by
  unfold readPiece at h
  split at h
  case h_2 => exact readMinus_error h
  case h_4 => exact readSlash_error h
  case h_13 => exact readString_error h
  case h_15 =>
    split at h
    · next hw => exact readWord_error hw h
    · split at h
      · simpa using readNumber_error h
      · simp at h
  all_goals simp at h

theorem readPiece_of_malformed {first : Char} {rest source : List Char} {f : Fault}
    (h : Malformed f source) (hs : source = first :: rest) : readPiece first rest = .error f := by
  cases h with
  | @word text after hh ht hl hr =>
    obtain ⟨c, hc, hw⟩ := hh
    have hf : first = c := by
      cases text with
      | nil => simp at hc
      | cons d text => cases hs; cases hc; rfl
    rw [hf, readPiece_of_isWordStart hw, ← hf, ← hs]
    simp only [readWord, takeWhile_append_stop ht hr, if_pos hl]
  | @number negative digits after ht hl hr =>
    have hn : readNumber negative (digits ++ after) = .error (.numberTooLong negative) := by
      simp only [readNumber, takeWhile_append_stop ht hr, if_pos hl]
    cases digits with
    | nil => simp at hl
    | cons d digits =>
      have hd : d.isDigit = true := ht d (by simp)
      cases negative with
      | false => cases hs; rw [readPiece_of_isDigit hd]; exact hn
      | true =>
        cases hs
        have hm : d ≠ '-' := by rintro rfl; exact absurd hd (by decide)
        rw [List.cons_append] at hn
        change readMinus (d :: (digits ++ after)) = _
        simp only [readMinus, if_neg hm, if_pos hd, hn]
  | string hq =>
    cases hs
    have ht : ∀ c ∈ rest, (c != '"') = true := fun c hc => by
      simpa using ne_of_mem_of_not_mem hc hq
    have hd := @dropWhile_append_stop _ _ [] ht (by simp)
    rw [List.append_nil] at hd
    simp only [readPiece, readString, hd]
  | comment hc =>
    cases hs
    simp [readPiece, readSlash, splitCommentEnd?_eq_none_iff.2 hc]

/-- Reading fails exactly on text that begins with a malformed lexeme. -/
theorem readPiece_eq_error_iff {first : Char} {rest : List Char} {f : Fault} :
    readPiece first rest = .error f ↔ Malformed f (first :: rest) :=
  ⟨readPiece_error, fun h => readPiece_of_malformed h rfl⟩

end Ceng
