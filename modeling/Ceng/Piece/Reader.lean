import Ceng.Fault
import Ceng.Piece

/-!
# Reading one piece

`readPiece` looks at the first character of the source, lets one reader take
what belongs to the piece, and returns the piece with the source after it.
The readers decide on at most one character after the piece, apart from the
search for the end of a string or a block comment.

The lemmas say that reading loses nothing: the text of the piece followed by
the remaining source is the source that was read.
-/
namespace Ceng

/-- The most characters that a word may have. -/
def maxWordLength : Nat := 25

/-- The most digits that a number may have. -/
def maxDigits : Nat := 10

/-- Reads the longest run of word characters. -/
def readWord (source : List Char) : Except Fault (Piece × List Char) :=
  let text := source.takeWhile isWordChar
  if maxWordLength < text.length then .error .wordTooLong
  else .ok (.word text, source.dropWhile isWordChar)

/-- Reads the longest run of digits. The sign has been read already. -/
def readNumber (negative : Bool) (source : List Char) : Except Fault (Piece × List Char) :=
  let digits := source.takeWhile Char.isDigit
  if maxDigits < digits.length then .error (.numberTooLong negative)
  else .ok (.number negative digits, source.dropWhile Char.isDigit)

/-- Reads an operator of one character, or the longer one if `second` follows. -/
def readPaired (second : Char) (short long : Operator) : List Char → Piece × List Char
  | [] => (.operator short, [])
  | c :: rest => if c = second then (.operator long, rest) else (.operator short, c :: rest)

/-- Reads on after a minus sign. A sign belongs to a number only if a digit
follows it at once. -/
def readMinus : List Char → Except Fault (Piece × List Char)
  | [] => .ok (.operator .minus, [])
  | c :: rest =>
    if c = '-' then .ok (.operator .decrement, rest)
    else if c.isDigit then readNumber true (c :: rest)
    else .ok (.operator .minus, c :: rest)

/-- Splits text at the first `*/`: what stands before it and what follows it. -/
def splitCommentEnd? : List Char → Option (List Char × List Char)
  | [] => none
  | '*' :: '/' :: rest => some ([], rest)
  | c :: rest => (splitCommentEnd? rest).map fun (body, after) => (c :: body, after)

/-- Reads on after a slash. The search for the end of a block comment starts
after its star, so the star does not close the comment that it opens. -/
def readSlash : List Char → Except Fault (Piece × List Char)
  | [] => .ok (.operator .divide, [])
  | c :: rest =>
    if c = '*' then
      match splitCommentEnd? rest with
      | none => .error .openComment
      | some (body, after) => .ok (.blockComment body, after)
    else if c = '/' then .ok (.lineComment (rest.takeWhile (· != '\n')), rest.dropWhile (· != '\n'))
    else .ok (.operator .divide, c :: rest)

/-- Reads on after a quote, up to the next quote. There are no escapes. -/
def readString (source : List Char) : Except Fault (Piece × List Char) :=
  match source.dropWhile (· != '"') with
  | [] => .error .openString
  | _ :: after => .ok (.string (source.takeWhile (· != '"')), after)

/-- Reads the piece that begins with `first`. -/
def readPiece (first : Char) (rest : List Char) : Except Fault (Piece × List Char) :=
  match first with
  | ';' => .ok (.statementEnd, rest)
  | '-' => readMinus rest
  | '*' => .ok (.operator .times, rest)
  | '/' => readSlash rest
  | '+' => .ok (readPaired '+' .plus .increment rest)
  | '=' => .ok (readPaired '=' .assign .equal rest)
  | '<' => .ok (readPaired '=' .less .lessEqual rest)
  | '>' => .ok (readPaired '=' .greater .greaterEqual rest)
  | '(' => .ok (.bracket .leftParen, rest)
  | ')' => .ok (.bracket .rightParen, rest)
  | '\x7b' => .ok (.bracket .leftBrace, rest)
  | '\x7d' => .ok (.bracket .rightBrace, rest)
  | '"' => readString rest
  | '\n' => .ok (.newline, rest)
  | c =>
    if isWordStart c then readWord (c :: rest)
    else if c.isDigit then readNumber false (c :: rest)
    else .ok (.skipped c, rest)

/-! ## Reading loses nothing -/

theorem readWord_text {source rest : List Char} {p : Piece}
    (h : readWord source = .ok (p, rest)) : p.text ++ rest = source := by
  simp only [readWord] at h
  split at h
  · simp at h
  · cases h
    simp [Piece.text]

theorem readNumber_text {negative : Bool} {source rest : List Char} {p : Piece}
    (h : readNumber negative source = .ok (p, rest)) :
    p.text ++ rest = (if negative then ['-'] else []) ++ source := by
  simp only [readNumber] at h
  split at h
  · simp at h
  · cases h
    simp [Piece.text]

theorem readPaired_text {first second : Char} {short long : Operator} {source rest : List Char}
    {p : Piece} (hs : short.text = [first]) (hl : long.text = [first, second])
    (h : readPaired second short long source = (p, rest)) : p.text ++ rest = first :: source := by
  cases source with
  | nil => cases h; simp [Piece.text, hs]
  | cons c r =>
    simp only [readPaired] at h
    split at h
    · next hc => cases h; simp [Piece.text, hl, hc]
    · cases h; simp [Piece.text, hs]

theorem readMinus_text {source rest : List Char} {p : Piece}
    (h : readMinus source = .ok (p, rest)) : p.text ++ rest = '-' :: source := by
  cases source with
  | nil => cases h; rfl
  | cons c r =>
    simp only [readMinus] at h
    split at h
    · next hc => cases h; simp [Piece.text, Operator.text, hc]
    · split at h
      · simpa using readNumber_text h
      · cases h; rfl

theorem splitCommentEnd?_eq {source body after : List Char}
    (h : splitCommentEnd? source = some (body, after)) : source = body ++ '*' :: '/' :: after := by
  fun_induction splitCommentEnd? source generalizing body with
  | case1 => simp at h
  | case2 => simp_all
  | case3 c rest _ ih =>
    obtain ⟨⟨b, a⟩, hb, he⟩ := Option.map_eq_some_iff.1 h
    cases he
    simp [ih hb]

theorem readSlash_text {source rest : List Char} {p : Piece}
    (h : readSlash source = .ok (p, rest)) : p.text ++ rest = '/' :: source := by
  cases source with
  | nil => cases h; rfl
  | cons c r =>
    simp only [readSlash] at h
    split at h
    · next hc =>
      split at h
      · simp at h
      · next hb => cases h; simp [Piece.text, hc, splitCommentEnd?_eq hb]
    · split at h
      · next hc => cases h; simp [Piece.text, hc]
      · cases h; rfl

theorem readString_text {source rest : List Char} {p : Piece}
    (h : readString source = .ok (p, rest)) : p.text ++ rest = '"' :: source := by
  simp only [readString] at h
  split at h
  · simp at h
  · next c after hd =>
    cases h
    have hc := List.head?_dropWhile_not (· != '"') source
    have hs := List.takeWhile_append_dropWhile (p := (· != '"')) (l := source)
    rw [hd] at hc hs
    have hc : c = '"' := by simpa using hc
    rw [hc] at hs
    simp [Piece.text, hs]

/-- The text of a piece followed by the remaining source is the source. -/
theorem readPiece_text {first : Char} {rest after : List Char} {p : Piece}
    (h : readPiece first rest = .ok (p, after)) : p.text ++ after = first :: rest := by
  unfold readPiece at h
  split at h
  case h_2 => exact readMinus_text h
  case h_4 => exact readSlash_text h
  case h_5 => exact readPaired_text rfl rfl (Except.ok.inj h)
  case h_6 => exact readPaired_text rfl rfl (Except.ok.inj h)
  case h_7 => exact readPaired_text rfl rfl (Except.ok.inj h)
  case h_8 => exact readPaired_text rfl rfl (Except.ok.inj h)
  case h_13 => exact readString_text h
  case h_15 =>
    split at h
    · exact readWord_text h
    · split at h
      · simpa using readNumber_text h
      · cases h; rfl
  all_goals cases h; rfl

/-! ## Reading makes progress -/

theorem readWord_text_ne_nil {first : Char} {rest after : List Char} {p : Piece}
    (hf : isWordChar first = true) (h : readWord (first :: rest) = .ok (p, after)) :
    p.text ≠ [] := by
  simp only [readWord] at h
  split at h
  · simp at h
  · cases h
    simp [Piece.text, hf]

theorem readNumber_text_ne_nil {negative : Bool} {first : Char} {rest after : List Char} {p : Piece}
    (hf : first.isDigit = true) (h : readNumber negative (first :: rest) = .ok (p, after)) :
    p.text ≠ [] := by
  simp only [readNumber] at h
  split at h
  · simp at h
  · cases h
    simp [Piece.text, hf]

theorem readMinus_text_ne_nil {source after : List Char} {p : Piece}
    (h : readMinus source = .ok (p, after)) : p.text ≠ [] := by
  cases source with
  | nil => cases h; simp [Piece.text, Operator.text]
  | cons c r =>
    simp only [readMinus] at h
    split at h
    · cases h; simp [Piece.text, Operator.text]
    · split at h
      · next hd => exact readNumber_text_ne_nil hd h
      · cases h; simp [Piece.text, Operator.text]

theorem readPaired_text_ne_nil {second : Char} {short long : Operator} {source after : List Char}
    {p : Piece} (h : readPaired second short long source = (p, after)) : p.text ≠ [] := by
  have ht (op : Operator) : op.text ≠ [] := by cases op <;> simp [Operator.text]
  cases source with
  | nil => cases h; simp [Piece.text, ht]
  | cons c r => simp only [readPaired] at h; split at h <;> cases h <;> simp [Piece.text, ht]

theorem readSlash_text_ne_nil {source after : List Char} {p : Piece}
    (h : readSlash source = .ok (p, after)) : p.text ≠ [] := by
  cases source with
  | nil => cases h; simp [Piece.text, Operator.text]
  | cons c r =>
    simp only [readSlash] at h
    split at h
    · split at h
      · simp at h
      · cases h; simp [Piece.text]
    · split at h <;> cases h <;> simp [Piece.text, Operator.text]

theorem readString_text_ne_nil {source after : List Char} {p : Piece}
    (h : readString source = .ok (p, after)) : p.text ≠ [] := by
  simp only [readString] at h
  split at h
  · simp at h
  · cases h; simp [Piece.text]

/-- A piece takes at least one character. -/
theorem readPiece_text_ne_nil {first : Char} {rest after : List Char} {p : Piece}
    (h : readPiece first rest = .ok (p, after)) : p.text ≠ [] := by
  unfold readPiece at h
  split at h
  case h_2 => exact readMinus_text_ne_nil h
  case h_4 => exact readSlash_text_ne_nil h
  case h_5 => exact readPaired_text_ne_nil (Except.ok.inj h)
  case h_6 => exact readPaired_text_ne_nil (Except.ok.inj h)
  case h_7 => exact readPaired_text_ne_nil (Except.ok.inj h)
  case h_8 => exact readPaired_text_ne_nil (Except.ok.inj h)
  case h_13 => exact readString_text_ne_nil h
  case h_15 =>
    split at h
    · next hw => exact readWord_text_ne_nil (isWordChar_of_isWordStart hw) h
    · split at h
      · next hd => exact readNumber_text_ne_nil hd h
      · cases h; simp [Piece.text]
  all_goals cases h; simp [Piece.text, Operator.text]

/-- The source left over is shorter than the source that was read. -/
theorem length_lt_of_readPiece {first : Char} {rest after : List Char} {p : Piece}
    (h : readPiece first rest = .ok (p, after)) : after.length < (first :: rest).length := by
  have hl := congrArg List.length (readPiece_text h)
  have hp := List.length_pos_iff.2 (readPiece_text_ne_nil h)
  rw [List.length_append] at hl
  omega

end Ceng
