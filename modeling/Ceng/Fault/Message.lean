import Ceng.Fault

/-!
# Reading error messages

The detail and the line of a diagnostic can be read off its message. The detail
is not escaped and may look like the end of a message, so the last mark counts.
The details of scan errors are known, so their messages give the fault as well.
-/
namespace Ceng

/-- What stands before and after the last place where the mark begins. -/
def splitLast? (mark : List Char) : List Char → Option (List Char × List Char)
  | [] => none
  | c :: rest =>
    match splitLast? mark rest with
    | some (before, after) => some (c :: before, after)
    | none => (mark.isPrefixOf? (c :: rest)).map fun after => ([], after)

/-- The diagnostic with this message. -/
def Diagnostic.ofMessage? (message : String) : Option Diagnostic := do
  let rest ← "lexical error: ".toList.isPrefixOf? message.toList
  let (detail, tail) ← splitLast? " [line: ".toList rest
  if tail.getLast? = some ']' then
    let line ← (String.ofList tail.dropLast).toInt?
    some ⟨String.ofList detail, line⟩
  else none

namespace Fault

def all : List Fault :=
  [wordTooLong, numberTooLong false, numberTooLong true, openString, openComment]

/-- The fault with exactly this detail. -/
def ofDetail? (detail : String) : Option Fault := all.find? (·.detail == detail)

theorem ofDetail?_detail (fault : Fault) : ofDetail? fault.detail = some fault := by
  cases fault with
  | numberTooLong negative => cases negative <;> decide
  | _ => decide

end Fault

/-- The error of a scan with this message. -/
def LexicalError.ofMessage? (message : String) : Option LexicalError := do
  let d ← Diagnostic.ofMessage? message
  let fault ← Fault.ofDetail? d.detail
  let line ← d.line.toNat?
  some ⟨fault, line⟩

end Ceng
