/-!
# Characters written as code points

A character that cannot stand for itself is written as a backslash, a letter
that tells the width, and its code point in lower-case hexadecimal digits.
-/
namespace Ceng.Text

/-- The hexadecimal digits of a number, with zeros in front up to the width. -/
def hexDigits (width n : Nat) : List Char := (Nat.toDigits 16 n).leftpad width '0'

/-- Two digits for the first 256 code points, four up to U+FFFF, eight beyond. -/
def escapeCodePoint (c : Char) : List Char :=
  if c.toNat < 0x100 then '\\' :: 'x' :: hexDigits 2 c.toNat
  else if c.toNat < 0x10000 then '\\' :: 'u' :: hexDigits 4 c.toNat
  else '\\' :: 'U' :: hexDigits 8 c.toNat

end Ceng.Text
