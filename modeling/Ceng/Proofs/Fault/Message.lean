import Ceng.Fault
import Ceng.Text.ControlSequence

/-!
# Messages of scan errors

The message of an error that a scan gives is one line of ASCII text without controls, so a
terminal shows it as it is. Diagnostics with any other detail may be shown differently.
-/
namespace Ceng

/-- A text without an escape character stays as it is, whatever comes after it. -/
theorem Text.stripSequences_append {text : List Char} (h : escapeChar ∉ text)
    (rest : List Char) : stripSequences (text ++ rest) = text ++ stripSequences rest := by
  induction text with
  | nil => rfl
  | cons c text ih =>
    rw [List.mem_cons, not_or] at h
    obtain ⟨hc, htext⟩ := h
    rw [List.cons_append, stripSequences]
    split
    · next hs => rw [if_neg (Ne.symm hc)] at hs; cases hs
    · rw [ih htext, List.cons_append]

/-- Without an escape character there is no control sequence. -/
theorem Text.stripSequences_of_not_mem {text : List Char} (h : escapeChar ∉ text) :
    stripSequences text = text := by
  have hnil : stripSequences [] = [] := by rw [stripSequences]
  rw [← List.append_nil text, stripSequences_append h, hnil]

theorem Diagnostic.toList_message (d : Diagnostic) :
    d.message.toList = "lexical error: ".toList ++
      (d.detail.toList ++ (" [line: ".toList ++ (d.line.repr.toList ++ [']']))) := by
  have hclose : "]".toList = [']'] := by decide
  unfold message
  simp only [String.toList_append, List.append_assoc, hclose]

/-- A character that stands for itself on a terminal. -/
def isPlainAscii (c : Char) : Bool := ' ' ≤ c && c ≤ '~'

theorem not_mem_of_all_isPlainAscii {text : List Char} (h : text.all isPlainAscii = true) {c : Char}
    (hc : isPlainAscii c = false) : c ∉ text := fun hm => by
  rw [List.all_eq_true.1 h c hm] at hc
  cases hc

theorem isPlainAscii_of_isDigit {c : Char} (h : c.isDigit = true) : isPlainAscii c = true := by
  simp only [Char.isDigit, isPlainAscii, Bool.and_eq_true, decide_eq_true_eq] at h ⊢
  exact ⟨Char.le_trans (by decide) h.1, Char.le_trans h.2 (by decide)⟩

theorem isDigit_of_mem_repr {n : Nat} {c : Char} (h : c ∈ n.repr.toList) : c.isDigit = true := by
  rw [Nat.toList_repr] at h
  exact Nat.isDigit_of_mem_toDigits (by decide) (by decide) h

theorem all_isPlainAscii_repr (n : Nat) : n.repr.toList.all isPlainAscii = true :=
  List.all_eq_true.2 fun _ hc => isPlainAscii_of_isDigit (isDigit_of_mem_repr hc)

theorem Fault.all_isPlainAscii_detail (fault : Fault) :
    fault.detail.toList.all isPlainAscii = true := by
  cases fault with
  | numberTooLong negative => cases negative <;> decide
  | _ => decide

namespace LexicalError

theorem message_eq (e : LexicalError) :
    e.message = "lexical error: " ++ e.fault.detail ++ " [line: " ++ e.line.repr ++ "]" := rfl

theorem all_isPlainAscii_message (e : LexicalError) :
    e.message.toList.all isPlainAscii = true := by
  have hline : ((e.line : Int).repr.toList).all isPlainAscii = true := all_isPlainAscii_repr e.line
  rw [message, Diagnostic.toList_message]
  simp only [diagnostic, List.all_append, e.fault.all_isPlainAscii_detail, hline]
  decide

theorem not_mem_message (e : LexicalError) {c : Char} (hc : isPlainAscii c = false) :
    c ∉ e.message.toList :=
  not_mem_of_all_isPlainAscii e.all_isPlainAscii_message hc

end LexicalError

end Ceng
