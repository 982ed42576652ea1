import Ceng.Token.Dump

/-!
# Dumps on an open stream

A stream is the text written to it so far. Each write adds a dump and one
newline, or nothing if there is no token.
-/
namespace Ceng.DumpStream

/-- The text that a write of these tokens adds to a stream. -/
def block (tokens : List Token) : List Char :=
  let text := dump tokens
  if text = [] then [] else text ++ ['\n']

/-- Writes a dump to the stream and counts the tokens written. -/
def write (stream : List Char) (tokens : List Token) : List Char × Nat :=
  (stream ++ block tokens, tokens.length)

/-- Writes the chunks one after the other to the same stream, and counts the tokens of each. -/
def writeAll (stream : List Char) : List (List Token) → List Char × List Nat
  | [] => (stream, [])
  | chunk :: rest =>
    let (next, count) := write stream chunk
    let (last, counts) := writeAll next rest
    (last, count :: counts)

end Ceng.DumpStream
