import Ceng.Text.Span
import Ceng.Token.Dump

/-!
# Reading a dump

A dump is cut at the newlines that stand between a closing brace and the start
of a line, and each part is read as the line of a token. Texts are not escaped
in a dump, so a text that imitates such a place is cut there too: reading gives
the tokens back only if no text does.
-/
namespace Ceng

namespace Token

def isLabelChar (c : Char) : Bool := c != ',' && c != '\x7d'

/-- The token of a line. Its label ends at the first comma or closing brace. -/
def ofLine? (line : List Char) : Option Token := do
  let rest ← lineStart.isPrefixOf? line
  let kind ← Kind.ofLabel? (String.ofList (rest.takeWhile isLabelChar))
  let value := rest.dropWhile isLabelChar
  if value = ['\x7d'] then some ⟨kind, []⟩
  else do
    let text ← valueMark.isPrefixOf? value
    if 1 < text.length ∧ text.getLast? = some '\x7d' then some ⟨kind, text.dropLast⟩ else none

end Token

/-- Cuts a dump into lines: the first one, and all others. The character before
the text decides whether a newline at its front is a cut. -/
def cutLines (before : Option Char) : List Char → List Char × List (List Char)
  | [] => ([], [])
  | c :: rest =>
    let (first, others) := cutLines (some c) rest
    if c = '\n' ∧ before = some '\x7d' ∧ Token.lineStart.isPrefixOf rest then ([], first :: others)
    else (c :: first, others)

/-- The tokens of a dump. An empty dump has none. -/
def readDump? (text : List Char) : Option (List Token) :=
  if text = [] then some []
  else
    let (first, others) := cutLines none text
    (first :: others).mapM Token.ofLine?

namespace Token

theorem isLabelChar_of_mem_label {k : Kind} {c : Char} (h : c ∈ k.label.toList) :
    isLabelChar c = true := by
  have hk : k.label.toList.all isLabelChar = true := by cases k <;> decide
  exact List.all_eq_true.1 hk c h

/-- Each line gives its token back, whatever the text. -/
theorem ofLine?_line (t : Token) : ofLine? t.line = some t := by
  obtain ⟨kind, value⟩ := t
  have hl : ∀ c ∈ kind.label.toList, isLabelChar c = true := fun _ => isLabelChar_of_mem_label
  have split (tail : List Char) (ht : ∀ c ∈ tail.head?, isLabelChar c = false) :
      ofLine? (lineStart ++ (kind.label.toList ++ tail)) =
        if tail = ['\x7d'] then some ⟨kind, []⟩
        else (valueMark.isPrefixOf? tail).bind fun text =>
          if 1 < text.length ∧ text.getLast? = some '\x7d' then some ⟨kind, text.dropLast⟩
          else none := by
    simp only [ofLine?, isPrefixOf?_append, Option.bind_eq_bind, Option.bind_some,
      takeWhile_append_stop hl ht, dropWhile_append_stop hl ht, String.ofList_toList,
      Kind.ofLabel?_label]
  cases value with
  | nil => simpa [line] using split ['\x7d'] (by simp [isLabelChar])
  | cons c value =>
    have hv : valueMark = ',' :: valueMark.tail := by decide
    have hm := split (valueMark ++ (c :: value ++ ['\x7d'])) (by rw [hv]; simp [isLabelChar])
    have hn : valueMark ++ (c :: value ++ ['\x7d']) ≠ ['\x7d'] := by rw [hv]; simp
    have hd : (c :: value ++ ['\x7d']).dropLast = c :: value := List.dropLast_concat
    have hg : (c :: value ++ ['\x7d']).getLast? = some '\x7d' := List.getLast?_concat
    rw [if_neg hn, isPrefixOf?_append, Option.bind_some, hd, hg, if_pos (by simp)] at hm
    simpa [line] using hm

theorem line_injective {t u : Token} (h : t.line = u.line) : t = u := by
  have := congrArg ofLine? h
  rwa [ofLine?_line, ofLine?_line, Option.some.injEq] at this

end Token
end Ceng
