import Ceng.Proofs.Scan.Gaps
import Ceng.Token.Spelling

/-!
# Spellings and pieces

A well-formed token is the token of a well-formed piece, and its spelling is the text
of that piece. Two tokens fuse exactly if the piece of the first one would go on with
the first character of the second one, which is all that the second one matters for.
-/
namespace Ceng

/-! ## Tokens and pieces -/

/-- A token is spelled as the piece that gives it. -/
theorem Piece.text_eq_spelling {p : Piece} {t : Token} (h : p.token? = some t) :
    p.text = t.spelling := by
  cases p with
  | word text =>
    cases h
    by_cases hk : text ∈ keywords <;> simp [Piece.text, Token.spelling, hk]
  | bracket b => cases b <;> cases h <;> rfl
  | blockComment | lineComment | newline | skipped => cases h
  | _ => cases h; rfl

theorem Piece.WellFormed.token {p : Piece} {t : Token} (hw : p.WellFormed)
    (h : p.token? = some t) : t.WellFormed := by
  cases p with
  | word text =>
    cases h
    by_cases hk : text ∈ keywords
    · simp [Token.WellFormed, hk]
    · simpa [Token.WellFormed, hk] using hw
  | number negative digits => cases h; exact ⟨negative, digits, hw, rfl⟩
  | operator op => cases h; exact ⟨op, rfl⟩
  | bracket b => cases b <;> cases h <;> rfl
  | statementEnd => cases h; rfl
  | string body => cases h; exact hw
  | blockComment | lineComment | newline | skipped => cases h

theorem wellFormed_word_of_mem_keywords {text : List Char} (h : text ∈ keywords) :
    (Piece.word text).WellFormed := by
  have hall : ∀ text ∈ keywords, text.head?.any isWordStart = true ∧
      text.all isWordChar = true ∧ text.length ≤ maxWordLength := by decide
  obtain ⟨hs, hc, hl⟩ := hall text h
  refine ⟨?_, List.all_eq_true.1 hc, hl⟩
  exact (Option.any_eq_true _ _).1 hs

theorem Token.WellFormed.exists_piece {t : Token} (h : t.WellFormed) :
    ∃ p : Piece, p.WellFormed ∧ p.token? = some t := by
  obtain ⟨kind, text⟩ := t
  cases kind with
  | identifier => exact ⟨.word text, h.1, by simp [Piece.token?, h.2]⟩
  | keyword =>
    have hk : text ∈ keywords := h
    exact ⟨.word text, wellFormed_word_of_mem_keywords hk, by simp [Piece.token?, hk]⟩
  | intConstant =>
    obtain ⟨negative, digits, hw, ht⟩ := h
    exact ⟨.number negative digits, hw, by rw [Piece.token?, ← ht]⟩
  | operator =>
    obtain ⟨op, ht⟩ := h
    exact ⟨.operator op, trivial, by rw [Piece.token?, ← ht]⟩
  | leftParen => exact ⟨.bracket .leftParen, trivial, by rw [show text = _ from h]; rfl⟩
  | rightParen => exact ⟨.bracket .rightParen, trivial, by rw [show text = _ from h]; rfl⟩
  | leftBrace => exact ⟨.bracket .leftBrace, trivial, by rw [show text = _ from h]; rfl⟩
  | rightBrace => exact ⟨.bracket .rightBrace, trivial, by rw [show text = _ from h]; rfl⟩
  | statementEnd => exact ⟨.statementEnd, trivial, by rw [show text = _ from h]; rfl⟩
  | stringConstant => exact ⟨.string text, h, rfl⟩

theorem wellFormed_of_mem_tokensOf {pieces : List Piece} (h : ∀ p ∈ pieces, p.WellFormed)
    {t : Token} (ht : t ∈ tokensOf pieces) : t.WellFormed := by
  obtain ⟨p, hp, hpt⟩ := List.mem_filterMap.1 ht
  exact (h p hp).token hpt

/-! ## Neighbours -/

namespace Token

/-- What the first character of its spelling says about a token, as far as a piece
before it may ask. -/
structure BeginsWith (t : Token) (c : Char) : Prop where
  significant : isSignificant c = true
  word : isWordChar c = (t.isWord || t.isUnsigned)
  digit : c.isDigit = t.isUnsigned
  minus : (c == '-' || c.isDigit) = (t.isOperator .minus || t.isOperator .decrement || t.isNumber)
  plus : (c == '+') = (t.isOperator .plus || t.isOperator .increment)
  assign : (c == '=') = (t.isOperator .assign || t.isOperator .equal)
  divide : (c == '*' || c == '/') = (t.isOperator .divide || t.isOperator .times)

variable {t u : Token}

theorem isOperator_eq_false (h : t.kind ≠ .operator) (op : Operator) : t.isOperator op = false := by
  simp [isOperator, h]

theorem isNumber_eq_false (h : t.kind ≠ .intConstant) : t.isNumber = false := by
  simp [isNumber, h]

theorem isUnsigned_eq_false (h : t.isNumber = false) : t.isUnsigned = false := by
  rw [isUnsigned, h, Bool.false_and]

theorem isNumber_of_isUnsigned (h : t.isUnsigned = true) : t.isNumber = true :=
  (Bool.and_eq_true_iff.1 h).1

theorem kind_of_isWord (h : t.isWord = true) : t.kind = .identifier ∨ t.kind = .keyword := by
  simpa [isWord] using h

theorem isNumber_eq_false_of_isWord (h : t.isWord = true) : t.isNumber = false := by
  apply isNumber_eq_false
  rcases kind_of_isWord h with hk | hk <;> rw [hk] <;> decide

theorem isOperator_eq_false_of_isWord (h : t.isWord = true) (op : Operator) :
    t.isOperator op = false := by
  refine isOperator_eq_false ?_ op
  rcases kind_of_isWord h with hk | hk <;> rw [hk] <;> decide

theorem kind_of_isNumber (h : t.isNumber = true) : t.kind = .intConstant := by
  simpa [isNumber] using h

theorem isOperator_eq_false_of_isNumber (h : t.isNumber = true) (op : Operator) :
    t.isOperator op = false := by
  refine isOperator_eq_false ?_ op
  rw [kind_of_isNumber h]
  decide

theorem isWord_eq_false_of_isNumber (h : t.isNumber = true) : t.isWord = false := by
  simp [isWord, kind_of_isNumber h]

theorem isOperator_operator (op other : Operator) :
    isOperator ⟨.operator, op.text⟩ other = decide (op = other) := by
  cases op <;> cases other <;> decide

/-! What fuses with a first token of each kind. -/

theorem fuses_of_isWord (h : t.isWord = true) : t.fuses u = (u.isWord || u.isUnsigned) := by
  simp only [fuses, h, isNumber_eq_false_of_isWord h, isOperator_eq_false_of_isWord h,
    Bool.true_and, Bool.false_and, Bool.or_false]

theorem fuses_of_isNumber (h : t.isNumber = true) : t.fuses u = u.isUnsigned := by
  simp only [fuses, h, isWord_eq_false_of_isNumber h, isOperator_eq_false_of_isNumber h,
    Bool.true_and, Bool.false_and, Bool.false_or, Bool.or_false]

/-- Six operators fuse with something. -/
theorem fuses_operator (op : Operator) (u : Token) :
    fuses ⟨.operator, op.text⟩ u =
      match op with
      | .minus => u.isOperator .minus || u.isOperator .decrement || u.isNumber
      | .plus => u.isOperator .plus || u.isOperator .increment
      | .assign | .less | .greater => u.isOperator .assign || u.isOperator .equal
      | .divide => u.isOperator .divide || u.isOperator .times
      | _ => false := by
  have hword : isWord ⟨.operator, op.text⟩ = false := rfl
  have hnumber : isNumber ⟨.operator, op.text⟩ = false := rfl
  simp only [fuses, hword, hnumber, isOperator_operator]
  cases op <;> simp

/-! What a spelling begins with. -/

theorem beq_eq_false_of_class {p : Char → Bool} {c d : Char} (hc : p c = true)
    (hd : p d = false) : (c == d) = false := by
  rw [beq_eq_false_iff_ne]
  rintro rfl
  rw [hc] at hd
  cases hd

theorem beginsWith_of_isWordStart (ht : t.isWord = true) {c : Char}
    (hc : isWordStart c = true) : t.BeginsWith c := by
  have hop := isOperator_eq_false_of_isWord ht
  have hnumber := isNumber_eq_false_of_isWord ht
  have hunsigned := isUnsigned_eq_false hnumber
  have hword := isWordChar_of_isWordStart hc
  have hdigit : c.isDigit = false := by
    rw [Bool.eq_false_iff]
    intro hd
    rw [isWordStart_eq_false_of_isDigit hd] at hc
    cases hc
  constructor
  · exact isSignificant_of_isWordChar hword
  · rw [hword, ht, Bool.true_or]
  · rw [hdigit, hunsigned]
  · rw [beq_eq_false_of_class hc (by decide), hdigit, hop, hop, hnumber, Bool.or_false,
      Bool.or_false]
  · rw [beq_eq_false_of_class hc (by decide), hop, hop, Bool.or_false]
  · rw [beq_eq_false_of_class hc (by decide), hop, hop, Bool.or_false]
  · rw [beq_eq_false_of_class hc (by decide), beq_eq_false_of_class hc (by decide), hop, hop]

theorem beginsWith_of_isDigit (ht : t.isUnsigned = true) {c : Char}
    (hc : c.isDigit = true) : t.BeginsWith c := by
  have hnumber := isNumber_of_isUnsigned ht
  have hop := isOperator_eq_false_of_isNumber hnumber
  have hword := isWordChar_of_isDigit hc
  constructor
  · exact isSignificant_of_isWordChar hword
  · rw [hword, ht, Bool.or_true]
  · rw [hc, ht]
  · rw [hc, hnumber, Bool.or_true, Bool.or_true]
  · rw [beq_eq_false_of_class hc (by decide), hop, hop, Bool.or_false]
  · rw [beq_eq_false_of_class hc (by decide), hop, hop, Bool.or_false]
  · rw [beq_eq_false_of_class hc (by decide), beq_eq_false_of_class hc (by decide), hop, hop]

end Token

theorem Piece.WellFormed.beginsWith {p : Piece} {t : Token} (hw : p.WellFormed)
    (h : p.token? = some t) : ∃ c rest, t.spelling = c :: rest ∧ t.BeginsWith c := by
  rw [← Piece.text_eq_spelling h]
  cases p with
  | word text =>
    obtain ⟨⟨c, hc, hs⟩, _⟩ := hw
    cases text with
    | nil => cases hc
    | cons d text =>
      cases hc
      cases h
      refine ⟨c, text, rfl, Token.beginsWith_of_isWordStart ?_ hs⟩
      by_cases hk : c :: text ∈ keywords <;> simp [Token.isWord, hk]
  | number negative digits =>
    cases digits with
    | nil => exact absurd rfl hw.1
    | cons d digits =>
      have hd : d.isDigit = true := hw.2.1 d (by simp)
      cases negative with
      | true =>
        cases h
        exact ⟨'-', d :: digits, rfl, by constructor <;> rfl⟩
      | false =>
        have hm : d ≠ '-' := by rintro rfl; exact absurd hd (by decide)
        cases h
        refine ⟨d, digits, rfl, Token.beginsWith_of_isDigit ?_ hd⟩
        simp [Token.isUnsigned, Token.isNumber, Piece.text, hm]
  | operator op => cases op <;> cases h <;> exact ⟨_, _, rfl, by constructor <;> decide⟩
  | bracket b => cases b <;> cases h <;> exact ⟨_, _, rfl, by constructor <;> decide⟩
  | statementEnd => cases h; exact ⟨_, _, rfl, by constructor <;> decide⟩
  | string body => cases h; exact ⟨_, _, rfl, by constructor <;> rfl⟩
  | blockComment | lineComment | newline | skipped => cases h

/-- Two tokens fuse exactly if the piece of the first one would go on with the first
character of the second one. -/
theorem Piece.fuses_eq_extendsBy {p : Piece} {t u : Token} {c : Char} (h : p.token? = some t)
    (hu : u.BeginsWith c) : t.fuses u = p.extendsBy c := by
  cases p with
  | word text =>
    have hword : t.isWord = true := by
      cases h
      by_cases hk : text ∈ keywords <;> simp [Token.isWord, hk]
    rw [Token.fuses_of_isWord hword]
    exact hu.word.symm
  | number negative digits =>
    have hnumber : t.isNumber = true := by
      cases h
      rfl
    rw [Token.fuses_of_isNumber hnumber]
    exact hu.digit.symm
  | operator op =>
    cases h
    rw [Token.fuses_operator]
    cases op with
    | plus => exact hu.plus.symm
    | minus => exact hu.minus.symm
    | divide => exact hu.divide.symm
    | assign => exact hu.assign.symm
    | less => exact hu.assign.symm
    | greater => exact hu.assign.symm
    | _ => rfl
  | bracket b => cases b <;> cases h <;> rfl
  | statementEnd => cases h; rfl
  | string body => cases h; rfl
  | blockComment | lineComment | newline | skipped => cases h

theorem Piece.isOperator_of_extendsBy_slash {p : Piece} {t : Token} (h : p.token? = some t)
    (hc : p.extendsBy '/' = true) : t.isOperator .divide = true := by
  cases p with
  | operator op => cases op <;> cases h <;> first | rfl | exact absurd hc (by decide)
  | blockComment | lineComment | newline | skipped => cases h
  | _ => exact absurd hc (by simp [Piece.extendsBy, isWordChar])

end Ceng
