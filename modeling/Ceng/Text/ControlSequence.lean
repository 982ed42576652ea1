/-!
# Terminal control sequences

A control sequence is an escape character, an opening square bracket, any number
of digits, semicolons and question marks, and a final ASCII letter.
-/
namespace Ceng.Text

def escapeChar : Char := '\x1b'

def isSequenceParameter (c : Char) : Bool := c.isDigit || c == ';' || c == '?'

/-- What follows a control sequence whose escape character has been read. -/
def afterSequence? : List Char → Option (List Char)
  | '[' :: rest =>
    match rest.dropWhile isSequenceParameter with
    | c :: after => if c.isAlpha then some after else none
    | [] => none
  | _ => none

theorem length_lt_of_afterSequence? {text after : List Char} (h : afterSequence? text = some after) :
    after.length < text.length := by
  unfold afterSequence? at h
  split at h
  · next rest =>
    split at h
    · next c r hd =>
      split at h
      · cases h
        have := (List.dropWhile_suffix (l := rest) isSequenceParameter).length_le
        simp only [hd, List.length_cons] at this ⊢
        omega
      · simp at h
    · simp at h
  · simp at h

/-- Text without its control sequences. Text that a removal joins together is
not looked at again. -/
def stripSequences (text : List Char) : List Char :=
  match text with
  | [] => []
  | c :: rest =>
    match _h : if c = escapeChar then afterSequence? rest else none with
    | some after => stripSequences after
    | none => c :: stripSequences rest
termination_by text.length
decreasing_by
  · have hs : afterSequence? rest = some after := by
      split at _h
      · exact _h
      · simp at _h
    have := length_lt_of_afterSequence? hs
    simp only [List.length_cons]
    omega
  · simp

end Ceng.Text
