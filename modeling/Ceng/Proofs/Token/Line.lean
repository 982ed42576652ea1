import Ceng.Token.DumpReader
import Mathlib.Data.Finset.Card

/-!
# Lines of tokens

The text of a token is written into its line as it is, also where it looks like the end of
the line or like another line. Still a line is the line of one token only: its label ends at
the first comma or brace, and all between the mark after it and the last brace is the text.
This is about lines taken one by one, not about a dump, in which they have to be found.
-/
namespace Ceng.Token

theorem Kind.ofLabel?_eq_some_iff {label : String} {k : Kind} :
    Kind.ofLabel? label = some k ↔ label = k.label := by
  refine ⟨fun h => ?_, fun h => h ▸ Kind.ofLabel?_label k⟩
  have hfound := List.find?_some h
  exact (eq_of_beq hfound).symm

/-- A text is read as a token exactly if it is the line of that token. -/
theorem ofLine?_eq_some_iff {text : List Char} {t : Token} :
    ofLine? text = some t ↔ text = t.line := by
  refine ⟨fun h => ?_, fun h => h ▸ ofLine?_line t⟩
  simp only [ofLine?, Option.bind_eq_bind, Option.bind_eq_some_iff] at h
  obtain ⟨rest, hstart, kind, hkind, hvalue⟩ := h
  have htext : text = lineStart ++ rest := isPrefixOf?_eq_some_iff.1 hstart
  have hlabel : rest.takeWhile isLabelChar = kind.label.toList := by
    rw [← Kind.ofLabel?_eq_some_iff.1 hkind, String.toList_ofList]
  have hrest : rest = kind.label.toList ++ rest.dropWhile isLabelChar := by
    rw [← hlabel, List.takeWhile_append_dropWhile]
  rw [htext, hrest]
  -- Only the line of a token without a text has nothing but the brace after its label.
  by_cases hbrace : rest.dropWhile isLabelChar = ['\x7d']
  · rw [if_pos hbrace] at hvalue
    obtain rfl := Option.some.inj hvalue
    rw [hbrace]
    simp [line]
  · rw [if_neg hbrace] at hvalue
    obtain ⟨body, hmark, hbody⟩ := Option.bind_eq_some_iff.1 hvalue
    by_cases hend : 1 < body.length ∧ body.getLast? = some '\x7d'
    · rw [if_pos hend] at hbody
      obtain rfl := Option.some.inj hbody
      obtain ⟨front, rfl⟩ := List.getLast?_eq_some_iff.1 hend.2
      have hne : front ≠ [] := by
        intro hnil
        rw [hnil] at hend
        exact absurd hend.1 (by decide)
      rw [isPrefixOf?_eq_some_iff.1 hmark, List.dropLast_concat, line, if_neg hne]
      simp only [List.append_assoc]
    · rw [if_neg hend] at hbody
      cases hbody

example : ofLine? "Token\x7bType: Identifier, Value: x\x7d\nToken\x7bType: EndOfLine\x7d".toList =
    some ⟨.identifier, "x\x7d\nToken\x7bType: EndOfLine".toList⟩ := by decide

theorem line_eq_line_iff {t u : Token} : t.line = u.line ↔ t = u :=
  ⟨line_injective, congrArg line⟩

/-- Lines repeat exactly where tokens do. -/
theorem card_lines (tokens : List Token) :
    (tokens.map line).toFinset.card = tokens.toFinset.card := by
  have hlines : (tokens.map line).toFinset = tokens.toFinset.image line := by
    ext text
    simp only [List.mem_toFinset, List.mem_map, Finset.mem_image]
  rw [hlines]
  exact Finset.card_image_of_injective _ fun _ _ => line_injective

/-- A line is the line of the one token that it is read as, so lines differ if their tokens
do, and there are as many different lines of some tokens as there are different tokens. -/
theorem lines_tell_tokens_apart :
    (∀ text t, ofLine? text = some t ↔ text = line t) ∧
    (∀ t u : Token, t.line = u.line ↔ t = u) ∧
    ∀ tokens : List Token, (tokens.map line).toFinset.card = tokens.toFinset.card :=
  ⟨fun _ _ => ofLine?_eq_some_iff, fun _ _ => line_eq_line_iff, card_lines⟩

end Ceng.Token
