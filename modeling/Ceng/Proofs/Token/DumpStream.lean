import Ceng.Token.DumpStream
import Mathlib.Algebra.GroupWithZero.Nat

/-!
# Writing dumps in pieces

A dump has newlines between its lines, and a stream has one more after each dump that is not
empty. Together that is one newline after every line, so a stream does not show where one
write ended and the next one began. Nothing is said of how a stream is read back.
-/
namespace Ceng.DumpStream

/-! ## One write -/

theorem block_nil : block [] = [] := by
  rw [block, dump_nil]
  rfl

theorem block_of_ne_nil {tokens : List Token} (h : tokens ≠ []) :
    block tokens = dump tokens ++ ['\n'] := by
  have hdump : dump tokens ≠ [] := fun hnil => h (dump_eq_nil_iff.1 hnil)
  simp only [block, if_neg hdump]

/-- There is no token without a line, so only a write without tokens adds no text. -/
theorem block_eq_nil_iff {tokens : List Token} : block tokens = [] ↔ tokens = [] := by
  cases tokens with
  | nil => exact iff_of_true block_nil rfl
  | cons t rest =>
    rw [block_of_ne_nil (List.cons_ne_nil t rest)]
    exact iff_of_false (List.concat_ne_nil _ _) (List.cons_ne_nil t rest)

/-- The newline between two lines and the one at the end of the text are of the same use. -/
theorem block_cons (t : Token) (rest : List Token) :
    block (t :: rest) = t.line ++ ['\n'] ++ block rest := by
  rw [block_of_ne_nil (List.cons_ne_nil t rest)]
  cases rest with
  | nil =>
    rw [block_nil, dump_singleton, List.append_nil]
  | cons u rest =>
    rw [block_of_ne_nil (List.cons_ne_nil u rest), dump_cons_cons]
    simp only [List.append_assoc, List.cons_append, List.nil_append]

theorem block_eq_flatMap (tokens : List Token) :
    block tokens = tokens.flatMap fun t => t.line ++ ['\n'] := by
  induction tokens with
  | nil => exact block_nil
  | cons t rest ih => rw [block_cons, ih, List.flatMap_cons]

theorem block_append (tokens more : List Token) :
    block (tokens ++ more) = block tokens ++ block more := by
  rw [block_eq_flatMap, block_eq_flatMap, block_eq_flatMap, List.flatMap_append]

/-- A second write goes on where the first one stopped. -/
theorem write_write (stream : List Char) (tokens more : List Token) :
    (write (write stream tokens).1 more).1 = (write stream (tokens ++ more)).1 := by
  simp only [write, block_append, List.append_assoc]

/-! ## Many writes -/

theorem writeAll_cons (stream : List Char) (chunk : List Token) (rest : List (List Token)) :
    writeAll stream (chunk :: rest) =
      ((writeAll (write stream chunk).1 rest).1,
        chunk.length :: (writeAll (write stream chunk).1 rest).2) := rfl

theorem writeAll_stream (stream : List Char) (chunks : List (List Token)) :
    (writeAll stream chunks).1 = (write stream chunks.flatten).1 := by
  induction chunks generalizing stream with
  | nil =>
    rw [List.flatten_nil, write, block_nil, List.append_nil]
    rfl
  | cons chunk rest ih => rw [writeAll_cons, ih, write_write, List.flatten_cons]

theorem writeAll_counts (stream : List Char) (chunks : List (List Token)) :
    (writeAll stream chunks).2 = chunks.map List.length := by
  induction chunks generalizing stream with
  | nil => rfl
  | cons chunk rest ih => rw [writeAll_cons, ih, List.map_cons]

/-- The chunk written last is a write like any other. -/
theorem writeAll_concat (stream : List Char) (before : List (List Token)) (chunk : List Token) :
    (writeAll stream (before ++ [chunk])).1 = (write (writeAll stream before).1 chunk).1 := by
  rw [writeAll_stream, writeAll_stream, write_write, List.flatten_append, List.flatten_singleton]

theorem write_eq_self_iff {stream : List Char} {chunk : List Token} :
    (write stream chunk).1 = stream ↔ chunk = [] := by
  rw [← block_eq_nil_iff]
  exact List.append_right_eq_self

/-- However tokens are cut into chunks, writing the chunks one by one leaves the stream that
one write of them all leaves, and the counts add up to its count. After any chunks the stream
holds what was there at first and the line of each token with a newline after it. One more
chunk adds its dump and one newline, and nothing exactly if it has no tokens. -/
theorem writeAll_eq_write (stream : List Char) {tokens : List Token} {chunks : List (List Token)}
    (h : chunks.flatten = tokens) :
    (writeAll stream chunks).1 = (write stream tokens).1 ∧
    (writeAll stream chunks).2.sum = (write stream tokens).2 ∧
    (∀ before, (writeAll stream before).1 =
      stream ++ before.flatten.flatMap fun t => t.line ++ ['\n']) ∧
    ∀ before chunk,
      ((writeAll stream (before ++ [chunk])).1 = (writeAll stream before).1 ↔ chunk = []) ∧
      (chunk ≠ [] → (writeAll stream (before ++ [chunk])).1 =
        (writeAll stream before).1 ++ (dump chunk ++ ['\n'])) := by
  subst h
  refine ⟨writeAll_stream stream chunks, ?_, ?_, ?_⟩
  · rw [writeAll_counts, write, List.length_flatten]
  · intro before
    rw [writeAll_stream, write, block_eq_flatMap]
  · intro before chunk
    rw [writeAll_concat]
    refine ⟨write_eq_self_iff, fun hne => ?_⟩
    rw [write, block_of_ne_nil hne]

/-- A string that is a newline, no token, and the end of a statement, written one after the
other behind a text without a newline. -/
theorem writeAll_newline_string_then_nothing :
    [[(⟨.stringConstant, ['\n']⟩ : Token)], [], [⟨.statementEnd, []⟩]].flatten =
      [⟨.stringConstant, ['\n']⟩, ⟨.statementEnd, []⟩] ∧
    (writeAll ['x'] [[⟨.stringConstant, ['\n']⟩], [], [⟨.statementEnd, []⟩]]).1 =
      (write ['x'] [⟨.stringConstant, ['\n']⟩, ⟨.statementEnd, []⟩]).1 ∧
    (writeAll ['x'] [[⟨.stringConstant, ['\n']⟩], [], [⟨.statementEnd, []⟩]]).2.sum = 2 ∧
    (writeAll ['x'] [[⟨.stringConstant, ['\n']⟩], []]).1 =
      "xToken\x7bType: StringConstant, Value: \n\x7d\n".toList ∧
    (writeAll ['x'] [[⟨.stringConstant, ['\n']⟩], []]).1 =
      (writeAll ['x'] [[⟨.stringConstant, ['\n']⟩]]).1 ∧
    (writeAll ['x'] [[⟨.stringConstant, ['\n']⟩], [], [⟨.statementEnd, []⟩]]).1 =
      (writeAll ['x'] [[⟨.stringConstant, ['\n']⟩], []]).1 ++
        "Token\x7bType: EndOfLine\x7d\n".toList := by
  obtain ⟨hstream, hcount, hlines, hchunk⟩ := writeAll_eq_write ['x']
    (show [[(⟨.stringConstant, ['\n']⟩ : Token)], [], [⟨.statementEnd, []⟩]].flatten =
      [⟨.stringConstant, ['\n']⟩, ⟨.statementEnd, []⟩] from rfl)
  have hnothing := hchunk [[⟨.stringConstant, ['\n']⟩]] []
  have hend := hchunk [[⟨.stringConstant, ['\n']⟩], []] [⟨.statementEnd, []⟩]
  refine ⟨rfl, hstream, hcount, ?_, hnothing.1.2 rfl, ?_⟩
  · rw [hlines [[⟨.stringConstant, ['\n']⟩], []]]
    decide
  · have hdump : dump [⟨.statementEnd, []⟩] ++ ['\n'] =
        "Token\x7bType: EndOfLine\x7d\n".toList := by decide
    rw [← hdump]
    exact hend.2 (List.cons_ne_nil _ _)

end Ceng.DumpStream
