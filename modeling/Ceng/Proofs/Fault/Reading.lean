import Ceng.Fault.Message
import Ceng.Proofs.Fault.Message
import Ceng.Text.Span
import Mathlib

/-!
# Reading back messages

The line of a diagnostic is written with digits and a sign, so the last mark of a message is
the one before its line, whatever marks the detail holds. What is read from a text that is
no message is left open: a line may be written in more than one way there.
-/
namespace Ceng

/-! ## The last mark -/

/-- The text is cut at the last place where the mark stands. -/
structure LastCut (mark text before after : List Char) : Prop where
  text_eq : text = before ++ (mark ++ after)
  last : ∀ front back, text = front ++ (mark ++ back) → front.length ≤ before.length

variable {mark text before after : List Char}

theorem LastCut.unique {front back : List Char} (h : LastCut mark text before after)
    (h' : LastCut mark text front back) : before = front ∧ after = back := by
  have hlength : before.length = front.length :=
    Nat.le_antisymm (h'.last _ _ h.text_eq) (h.last _ _ h'.text_eq)
  have htext : before ++ (mark ++ after) = front ++ (mark ++ back) :=
    h.text_eq.symm.trans h'.text_eq
  obtain ⟨hbefore, hrest⟩ := List.append_inj htext hlength
  exact ⟨hbefore, List.append_cancel_left hrest⟩

/-- A mark is the last one if none begins behind its first character. -/
theorem LastCut.of_not_infix_tail (before : List Char) (h : ¬ mark <:+: (mark ++ after).tail) :
    LastCut mark (before ++ (mark ++ after)) before after := by
  refine ⟨rfl, fun front back htext => ?_⟩
  rcases List.append_eq_append_iff.1 htext with ⟨more, rfl, hmore⟩ | ⟨more, rfl, _⟩
  · cases more with
    | nil => exact Nat.le_of_eq (by rw [List.append_nil])
    | cons c more =>
      refine absurd ⟨more, back, ?_⟩ h
      rw [hmore, List.cons_append, List.tail_cons, List.append_assoc]
  · rw [List.length_append]
    omega

theorem splitLast?_eq_none_iff (hmark : mark ≠ []) :
    splitLast? mark text = none ↔ ¬ mark <:+: text := by
  induction text with
  | nil => simp [splitLast?, hmark]
  | cons c rest ih =>
    rw [List.infix_cons_iff, not_or, ← ih, splitLast?]
    cases hrest : splitLast? mark rest with
    | some cut => simp
    | none =>
      cases hfront : mark.isPrefixOf? (c :: rest) with
      | none =>
        simp only [Option.map_none, true_iff, and_true]
        rintro ⟨after, hafter⟩
        rw [isPrefixOf?_eq_some_iff.2 hafter.symm] at hfront
        cases hfront
      | some after =>
        have htext := isPrefixOf?_eq_some_iff.1 hfront
        simp [htext]

theorem LastCut.of_splitLast? (hmark : mark ≠ [])
    (h : splitLast? mark text = some (before, after)) : LastCut mark text before after := by
  induction text generalizing before with
  | nil => cases h
  | cons c rest ih =>
    rw [splitLast?] at h
    cases hrest : splitLast? mark rest with
    | some cut =>
      obtain ⟨front, back⟩ := cut
      rw [hrest] at h
      obtain ⟨rfl, rfl⟩ := Prod.mk.inj (Option.some.inj h)
      obtain ⟨htext, hlast⟩ := ih hrest
      refine ⟨by rw [htext, List.cons_append], fun first second hcut => ?_⟩
      cases first with
      | nil => exact Nat.zero_le _
      | cons d first =>
        have hfirst := hlast first second (List.cons.inj hcut).2
        exact Nat.succ_le_succ hfirst
    | none =>
      -- No mark begins later, so the one that begins here is the last.
      rw [hrest] at h
      obtain ⟨_, hfront, hcut⟩ := Option.map_eq_some_iff.1 h
      obtain ⟨rfl, rfl⟩ := Prod.mk.inj hcut
      have htext := isPrefixOf?_eq_some_iff.1 hfront
      refine ⟨by rw [htext, List.nil_append], fun first second hlater => ?_⟩
      cases first with
      | nil => exact Nat.le_refl _
      | cons d first =>
        have hinside : rest = first ++ (mark ++ second) := (List.cons.inj hlater).2
        refine absurd ⟨first, second, ?_⟩ ((splitLast?_eq_none_iff hmark).1 hrest)
        rw [hinside, List.append_assoc]

theorem splitLast?_eq_some_iff (hmark : mark ≠ []) :
    splitLast? mark text = some (before, after) ↔ LastCut mark text before after := by
  refine ⟨LastCut.of_splitLast? hmark, fun h => ?_⟩
  cases hcut : splitLast? mark text with
  | none =>
    refine absurd ⟨before, after, ?_⟩ ((splitLast?_eq_none_iff hmark).1 hcut)
    rw [h.text_eq, List.append_assoc]
  | some cut =>
    obtain ⟨front, back⟩ := cut
    obtain ⟨rfl, rfl⟩ := h.unique (.of_splitLast? hmark hcut)
    rfl

/-! ## Messages -/

/-- What can be read back is told apart. -/
theorem eq_iff_of_read_back {α : Type} {write : α → String} {read? : String → Option α}
    (h : ∀ a, read? (write a) = some a) {a b : α} : write a = write b ↔ a = b := by
  refine ⟨fun heq => ?_, congrArg write⟩
  have hread := congrArg read? heq
  rw [h, h] at hread
  exact Option.some.inj hread

theorem isDigit_or_eq_hyphen_of_mem_repr {n : Int} {c : Char} (h : c ∈ n.repr.toList) :
    c.isDigit = true ∨ c = '-' := by
  cases n with
  | ofNat m => exact .inl (isDigit_of_mem_repr h)
  | negSucc m =>
    have hsign : "-".toList = ['-'] := by decide
    rw [Int.repr, String.toList_append, hsign] at h
    rcases List.mem_cons.1 h with hc | hc
    · exact .inr hc
    · exact .inl (isDigit_of_mem_repr hc)

theorem bracket_not_mem_repr (n : Int) : '[' ∉ n.repr.toList := by
  intro h
  rcases isDigit_or_eq_hyphen_of_mem_repr h with hc | hc
  · exact absurd hc (by decide)
  · exact absurd hc (by decide)

namespace Diagnostic

def lineMark : List Char := " [line: ".toList

/-- A second mark would need a second opening bracket. -/
theorem lineMark_not_infix_tail (h : '[' ∉ after) : ¬ lineMark <:+: (lineMark ++ after).tail := by
  have htail : (lineMark ++ after).tail = '[' :: ("line: ".toList ++ after) := rfl
  rw [htail, List.infix_cons_iff]
  rintro (hfront | hinside)
  · exact absurd (List.cons_prefix_cons.1 hfront).1 (by decide)
  · have hbracket : '[' ∈ "line: ".toList ++ after := hinside.subset (by decide)
    rcases List.mem_append.1 hbracket with hline | hafter
    · exact absurd hline (by decide)
    · exact h hafter

/-- The mark before the line is the last one, with or without the bracket after it. -/
theorem lastCut_line (d : Diagnostic) (close : List Char) (hclose : '[' ∉ close) :
    LastCut lineMark (d.detail.toList ++ (lineMark ++ (d.line.repr.toList ++ close)))
      d.detail.toList (d.line.repr.toList ++ close) := by
  refine .of_not_infix_tail _ (lineMark_not_infix_tail fun h => ?_)
  rcases List.mem_append.1 h with hline | hend
  · exact bracket_not_mem_repr d.line hline
  · exact hclose hend

/-- Between its front and its last bracket, a message is cut into the detail and the line. -/
theorem lastCut_iff (d : Diagnostic) :
    LastCut lineMark (d.detail.toList ++ (lineMark ++ d.line.repr.toList)) before after ↔
      before = d.detail.toList ∧ after = d.line.repr.toList := by
  have hcut := d.lastCut_line [] List.not_mem_nil
  rw [List.append_nil] at hcut
  refine ⟨fun h => h.unique hcut, ?_⟩
  rintro ⟨rfl, rfl⟩
  exact hcut

/-- Each message gives its diagnostic back, whatever the detail and the line. -/
theorem ofMessage?_message (d : Diagnostic) : ofMessage? d.message = some d := by
  have hmark : lineMark ≠ [] := by decide
  have hfront : "lexical error: ".toList.isPrefixOf? d.message.toList =
      some (d.detail.toList ++ (lineMark ++ (d.line.repr.toList ++ [']']))) := by
    rw [toList_message]
    exact isPrefixOf?_append _ _
  have hcut : splitLast? " [line: ".toList
      (d.detail.toList ++ (lineMark ++ (d.line.repr.toList ++ [']']))) =
        some (d.detail.toList, d.line.repr.toList ++ [']']) :=
    (splitLast?_eq_some_iff hmark).2 (d.lastCut_line [']'] (by decide))
  have hlast : (d.line.repr.toList ++ [']']).getLast? = some ']' := List.getLast?_concat
  rw [ofMessage?, hfront, Option.bind_eq_bind, Option.bind_some, hcut, Option.bind_eq_bind,
    Option.bind_some]
  dsimp only
  rw [if_pos hlast, List.dropLast_concat, String.ofList_toList, Int.toInt?_repr,
    Option.bind_eq_bind, Option.bind_some, String.ofList_toList]

theorem message_eq_iff {d d' : Diagnostic} : d.message = d'.message ↔ d = d' :=
  eq_iff_of_read_back ofMessage?_message

end Diagnostic

namespace LexicalError

/-- The message of a scan error gives back the fault and the line. -/
theorem ofMessage?_message (e : LexicalError) : ofMessage? e.message = some e := by
  have hline : (e.line : Int).toNat? = some e.line := rfl
  rw [ofMessage?, message, Diagnostic.ofMessage?_message]
  simp only [diagnostic, Fault.ofDetail?_detail, hline, Option.bind_eq_bind, Option.bind_some]

theorem message_eq_iff {e e' : LexicalError} : e.message = e'.message ↔ e = e' :=
  eq_iff_of_read_back ofMessage?_message

end LexicalError

end Ceng
