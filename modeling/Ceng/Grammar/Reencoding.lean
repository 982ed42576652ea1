import Ceng.Grammar

/-!
# Changing the characters that have no meaning

A re-encoding spells each character of a source in its own way. Significant
characters stay as they are, a newline stays one newline, and every other
character becomes one or more characters without meaning.
-/
namespace Ceng

structure Reencoding where
  spell : Char → List Char
  spell_significant : ∀ c, isSignificant c = true → spell c = [c]
  spell_skippable : ∀ c, isSkippable c = true → spell c ≠ [] ∧ ∀ d ∈ spell c, isSkippable d = true
  spell_newline : ∃ before after, spell '\n' = before ++ '\n' :: after ∧
    (∀ d ∈ before, isSkippable d = true) ∧ (∀ d ∈ after, isSkippable d = true)

/-- The source in the new spelling. -/
def Reencoding.apply (f : Reencoding) (source : List Char) : List Char := source.flatMap f.spell

end Ceng
