/-!
# Character classes of CENG source text

Words and numbers are made of ASCII characters only. A letter or digit of any
other script is a character without meaning, like a blank.
-/
namespace Ceng

/-- A word begins with an ASCII letter or an underscore. -/
def isWordStart (c : Char) : Bool := c.isAlpha || c == '_'

/-- A word goes on with ASCII letters, ASCII digits and underscores. -/
def isWordChar (c : Char) : Bool := c.isAlphanum || c == '_'

theorem isWordChar_of_isWordStart {c : Char} (h : isWordStart c = true) : isWordChar c = true := by
  simp only [isWordStart, isWordChar, Char.isAlphanum, Bool.or_eq_true] at *
  rcases h with h | h
  · exact .inl (.inl h)
  · exact .inr h

theorem isWordChar_of_isDigit {c : Char} (h : c.isDigit = true) : isWordChar c = true := by
  simp [isWordChar, Char.isAlphanum, h]

end Ceng
