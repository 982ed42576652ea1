import Ceng.Command.Report
import Ceng.Proofs.Fault.Message

/-!
# Streams of a run

Standard error is made of whole lines: a dump, whose text may end anywhere, goes elsewhere.
So the entry made last is what ends the stream. An entry may still fill several lines, as
file names may hold newlines; the message of a scan error does not.
-/
namespace Ceng.Command

section

variable {status stream : Stream} {entry : Entry}

theorem shown_append (status stream : Stream) (entries more : List Entry) :
    shown status stream (entries ++ more) =
      shown status stream entries ++ shown status stream more := by
  simp [shown]

theorem shown_of_stream_eq (h : entry.stream status = stream) :
    shown status stream [entry] = entry.text := by
  simp [shown, h]

theorem shown_of_stream_ne (h : entry.stream status ≠ stream) :
    shown status stream [entry] = [] := by
  simp [shown, h]

end

/-- The text is empty or ends with a newline. -/
def WholeLines (text : List Char) : Prop := text = [] ∨ text.getLast? = some '\n'

theorem WholeLines.append {text more : List Char} (h : WholeLines text) (hm : WholeLines more) :
    WholeLines (text ++ more) := by
  rcases hm with rfl | hm
  · rwa [List.append_nil]
  · exact .inr (by rw [List.getLast?_append, hm]; rfl)

theorem getLast?_plainLine (text : String) : (plainLine text).getLast? = some '\n' :=
  List.getLast?_concat

theorem Entry.wholeLines_text {status : Stream} {entry : Entry}
    (h : entry.stream status = .standardError) : WholeLines entry.text := by
  cases entry with
  | status text => exact .inr (getLast?_plainLine text)
  | log text => exact .inr List.getLast?_concat
  | dump text => cases h
  | failure f => exact .inr (getLast?_plainLine f.line)
  | trace => exact .inr (by decide)

theorem wholeLines_shown_standardError (status : Stream) (entries : List Entry) :
    WholeLines (shown status .standardError entries) := by
  induction entries with
  | nil => exact .inl rfl
  | cons entry entries ih =>
    rw [← List.singleton_append, shown_append]
    refine WholeLines.append ?_ ih
    by_cases hs : entry.stream status = .standardError
    · rw [shown_of_stream_eq hs]
      exact Entry.wholeLines_text hs
    · rw [shown_of_stream_ne hs]
      exact .inl rfl

/-- The last line of a text, without the newline that ends it. -/
def EndsWithLine (text line : List Char) : Prop :=
  '\n' ∉ line ∧ ∃ before, WholeLines before ∧ text = before ++ (line ++ ['\n'])

theorem EndsWithLine.length_le {text line line' : List Char} (h : EndsWithLine text line)
    (h' : EndsWithLine text line') : line.length ≤ line'.length := by
  obtain ⟨hn, before, -, rfl⟩ := h
  obtain ⟨-, before', hwhole, htext⟩ := h'
  rw [← List.append_assoc, ← List.append_assoc] at htext
  obtain ⟨htext, -⟩ := List.append_inj' htext rfl
  rcases List.append_eq_append_iff.1 htext with ⟨more, rfl, rfl⟩ | ⟨more, _, rfl⟩
  · -- A newline at the end of what comes before the one would stand in the other.
    rcases hwhole with hnil | hlast
    · exact Nat.le_of_eq (by rw [(List.append_eq_nil_iff.1 hnil).2, List.nil_append])
    · cases hm : more.getLast? with
      | none => exact Nat.le_of_eq (by rw [List.getLast?_eq_none_iff.1 hm, List.nil_append])
      | some c =>
        rw [List.getLast?_append, hm] at hlast
        obtain rfl := Option.some.inj hlast
        exact absurd (List.mem_append_left line' (List.mem_of_getLast? hm)) hn
  · rw [List.length_append]
    exact Nat.le_add_left _ _

/-- A text has only one last line. -/
theorem EndsWithLine.unique {text line line' : List Char} (h : EndsWithLine text line)
    (h' : EndsWithLine text line') : line = line' := by
  have hlength := Nat.le_antisymm (h.length_le h') (h'.length_le h)
  obtain ⟨-, before, -, rfl⟩ := h
  obtain ⟨-, before', -, htext⟩ := h'
  have hline := (List.append_inj' htext (by rw [List.length_append, List.length_append, hlength])).2
  exact (List.append_inj' hline rfl).1

/-- A failure whose line needs no change on a terminal is the last line. -/
theorem endsWithLine_failure {status : Stream} {entries : List Entry} {f : Failure}
    (hn : '\n' ∉ f.line.toList) (he : Text.escapeChar ∉ f.line.toList) :
    EndsWithLine (shown status .standardError (entries ++ [.failure f])) f.line.toList := by
  have hstream : (Entry.failure f).stream status = .standardError := rfl
  have htext : (Entry.failure f).text = plainLine f.line := rfl
  refine ⟨hn, _, wholeLines_shown_standardError status entries, ?_⟩
  rw [shown_append, shown_of_stream_eq hstream, htext, plainLine,
    Text.stripSequences_of_not_mem he]

end Ceng.Command
