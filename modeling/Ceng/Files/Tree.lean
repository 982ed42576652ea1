import Ceng.Files.FileError
import Ceng.Text.Latin1

/-!
# File trees

A file tree is a finite map from locations to directories and files, with a
current directory. A path is followed name by name; each name but the last has
to be found, and each place where a name is looked up has to be a directory.

Links, permissions and the limits on the size of files are left out.
-/
namespace Ceng

/-- The names on the way from the root. The root itself is the empty list. -/
abbrev Location := List String

inductive Node
  | directory
  | file (content : Bytes)
deriving DecidableEq, Repr

structure Tree where
  nodes : List (Location × Node)
  current : Location
deriving DecidableEq, Repr

namespace Tree

/-- The most bytes that a name in a directory may have. -/
def nameLimit : Nat := 255

/-- The most bytes that a whole path may have. -/
def pathLimit : Nat := 4095

/-- What is found at a location. The root is always a directory. -/
def node? (t : Tree) (l : Location) : Option Node :=
  if l = [] then some .directory else t.nodes.lookup l

/-- The tree with this node at the location and all else as before. -/
def set (t : Tree) (l : Location) (node : Node) : Tree :=
  { t with nodes := (l, node) :: t.nodes.filter (·.1 != l) }

private theorem lookup_filter_ne {l l' : Location} (h : l' ≠ l) (nodes : List (Location × Node)) :
    (nodes.filter (·.1 != l)).lookup l' = nodes.lookup l' := by
  induction nodes with
  | nil => rfl
  | cons entry nodes ih =>
    obtain ⟨k, node⟩ := entry
    by_cases hk : k = l
    · have hl : (l' == l) = false := by simpa using h
      simp [List.lookup_cons, hl, hk, ih]
    · simp [List.lookup_cons, hk, ih]

theorem node?_set_self (t : Tree) {l : Location} (h : l ≠ []) (node : Node) :
    (t.set l node).node? l = some node := by
  simp [node?, set, h]

/-- Setting a node leaves every other location as it was. -/
theorem node?_set_of_ne (t : Tree) {l l' : Location} (h : l' ≠ l) (node : Node) :
    (t.set l node).node? l' = t.node? l' := by
  have hl : (l' == l) = false := by simpa using h
  simp [node?, set, List.lookup_cons, hl, lookup_filter_ne h]

/-- Looks up a name in the directory at a location. -/
def enter (t : Tree) (l : Location) (name : String) : Except FileError.Cause Location :=
  match t.node? l with
  | none => .error .notFound
  | some (.file _) => .error .notDirectory
  | some .directory =>
    if name = ".." then .ok l.dropLast
    else if nameLimit < name.utf8ByteSize then .error .nameTooLong
    else .ok (l ++ [name])

/-- Where a path starts in this tree. -/
def origin (t : Tree) : Path.Start → Location
  | .current => t.current
  | .slash | .doubleSlash => []

/-- The location that a path leads to. Nothing need be there yet. -/
def locate (t : Tree) (p : Path) : Except FileError.Cause Location :=
  if pathLimit < p.text.utf8ByteSize then .error .nameTooLong
  else p.names.foldlM t.enter (t.origin p.start)

/-- The content of the file that a path leads to. -/
def read (t : Tree) (p : Path) : Except FileError.Cause Bytes :=
  match t.locate p with
  | .error cause => .error cause
  | .ok l =>
    match t.node? l with
    | none => .error .notFound
    | some .directory => .error .isDirectory
    | some (.file content) => .ok content

/-- Opens a file for writing: the location of the file that is made, or of the
one whose content is replaced. -/
def openForWriting (t : Tree) (p : Path) : Except FileError.Cause Location :=
  match t.locate p with
  | .error cause => .error cause
  | .ok l => if t.node? l = some .directory then .error .isDirectory else .ok l

/-- Whether the text as it stands names an existing directory. The empty text
names nothing. -/
def isDirectory (t : Tree) (text : String) : Bool :=
  text != "" && text.utf8ByteSize ≤ pathLimit &&
    match t.locate (.ofText text) with
    | .error _ => false
    | .ok l => t.node? l == some .directory

/-! ## Building and listing trees -/

/-- The location that a path names, whatever the tree holds. -/
def place (t : Tree) (p : Path) : Location :=
  p.names.foldl (fun l name => if name = ".." then l.dropLast else l ++ [name]) (t.origin p.start)

/-- Makes a directory at the location unless something is there. -/
def addDirectory (t : Tree) (l : Location) : Tree :=
  if (t.node? l).isNone then t.set l .directory else t

/-- Makes the directories on the way to the location, and one there. -/
def addDirectories (t : Tree) (l : Location) : Tree :=
  (List.range l.length).foldl (fun t n => t.addDirectory (l.take (n + 1))) t

/-- Puts a file at the location and makes the directories on the way to it. -/
def addFile (t : Tree) (l : Location) (content : Bytes) : Tree :=
  (t.addDirectories l.dropLast).set l (.file content)

/-- A tree that holds only the current directory. -/
def new (current : Location) : Tree := addDirectories ⟨[], current⟩ current

/-- The files below the current directory, each with its path from there. -/
def files (t : Tree) : List (String × Bytes) :=
  t.nodes.filterMap fun (l, node) =>
    match node with
    | .directory => none
    | .file content =>
      if t.current.isPrefixOf l then some ("/".intercalate (l.drop t.current.length), content)
      else none

end Tree
end Ceng
