import Ceng.Files.DumpFile
import Ceng.Files.Source
import Ceng.Scan
import Ceng.Token.DumpStream

/-!
# Library calls in sequence

One process makes calls one after the other. They share a file tree and one open
stream that dumps are written to. A failed call is answered with its error and
the sequence goes on.
-/
namespace Ceng

/-- Tokens for a call: given as they are, or scanned from a source first. -/
inductive TokenInput
  | given (tokens : List Token)
  | scanned (source : List Char)
deriving DecidableEq, Repr

def TokenInput.tokens : TokenInput → Except LexicalError (List Token)
  | given tokens => .ok tokens
  | scanned source => scan source

structure Workspace where
  tree : Tree
  stream : List Char
deriving DecidableEq, Repr

namespace Workspace

inductive Call
  | load (path : Path)
  | scanFile (path : Path)
  | write (path : Path) (input : TokenInput)
  | print (input : TokenInput)
deriving DecidableEq, Repr

inductive CallError
  | malformed (e : LexicalError)
  | unreadable (e : LoadError)
  | unwritten (e : WriteError)
deriving DecidableEq, Repr

inductive Reply
  | bytes (content : Bytes)
  | tokens (tokens : List Token)
  | count (n : Nat)
  | failed (e : CallError)
deriving DecidableEq, Repr

/-- Makes one call. The tokens of a call are there before anything is opened, so
a lexical error changes nothing. -/
def perform (w : Workspace) : Call → Reply × Workspace
  | .load p =>
    match w.tree.load p with
    | .error e => (.failed (.unreadable e), w)
    | .ok content => (.bytes content, w)
  | .scanFile p =>
    match w.tree.load p with
    | .error e => (.failed (.unreadable e), w)
    | .ok content =>
      match scan (Latin1.decode content) with
      | .error e => (.failed (.malformed e), w)
      | .ok tokens => (.tokens tokens, w)
  | .write p input =>
    match input.tokens with
    | .error e => (.failed (.malformed e), w)
    | .ok tokens =>
      match w.tree.writeDump p tokens with
      | (.error e, tree) => (.failed (.unwritten e), { w with tree })
      | (.ok n, tree) => (.count n, { w with tree })
  | .print input =>
    match input.tokens with
    | .error e => (.failed (.malformed e), w)
    | .ok tokens =>
      let (stream, n) := DumpStream.write w.stream tokens
      (.count n, { w with stream })

/-- Makes the calls in order. -/
def performAll (w : Workspace) : List Call → List Reply × Workspace
  | [] => ([], w)
  | call :: rest =>
    let (reply, next) := w.perform call
    let (replies, last) := next.performAll rest
    (reply :: replies, last)

end Workspace
end Ceng
