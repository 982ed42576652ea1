import Ceng.Workspace

/-!
# The journal of a sequence of calls

A call writes one file or none, and what it prints depends on nothing but its tokens. The
journal of a sequence lists the files that its calls write, in order, each with the content
that it is left with. Where a path leads is found out when the call is made.
-/
namespace Ceng

namespace Tree

/-- The tree with these files written one after the other. -/
def setFiles (t : Tree) (entries : List (Location × Bytes)) : Tree :=
  entries.foldl (fun t (l, content) => t.set l (.file content)) t

end Tree

/-- The content that the last entry for a location has, if there is any. -/
def lastContent? (entries : List (Location × Bytes)) (l : Location) : Option Bytes :=
  entries.reverse.lookup l

namespace Workspace

/-- The file that a call writes, with its new content. A file that has been opened stays
empty if the dump has a character without a byte. -/
def fileWritten? (w : Workspace) : Call → Option (Location × Bytes)
  | .write p input =>
    match input.tokens, w.tree.openForWriting p with
    | .ok tokens, .ok l => some (l, (Latin1.encode (dump tokens)).toOption.getD [])
    | .ok _, .error _ | .error _, _ => none
  | .load _ | .scanFile _ | .print _ => none

/-- The files that the calls write, in order. -/
def journal (w : Workspace) : List Call → List (Location × Bytes)
  | [] => []
  | call :: rest => (w.fileWritten? call).toList ++ (w.perform call).2.journal rest

/-- The text that a call adds to the stream. -/
def textPrinted : Call → List Char
  | .print input =>
    match input.tokens with
    | .ok tokens => DumpStream.block tokens
    | .error _ => []
  | .load _ | .scanFile _ | .write _ _ => []

end Workspace
end Ceng
