/-
Files below a working directory, and reading one by its path.

* `FileTree` — the directories and files, each by its place;
* `FileTree.step` — where one name of a path leads from a directory;
* `FileTree.makeDirectory`, `FileTree.writeFile` — the tree with one more directory or file, and
  with every directory through which the path to it goes;
* `FileTree.read` — the bytes of a file, or why they cannot be read.

Design notes: a place is a list of names without detours.  It may begin with `..`, once for each
directory above the working directory, or with `/` for the root.  A path is walked name by name, in
making as in reading, so `a/../b` goes through `a`.  In reading, the first step that fails decides
the reason.
-/
import LoxScan.CommandLine.File

namespace LoxScan

/-- What stands at a place. -/
inductive Entry
  | file (contents : List UInt8)
  | directory

/-- Directories and files by their places; what was written last comes first. -/
structure FileTree where
  directories : List (List String)
  files : List (List String × List UInt8)

namespace FileTree

/-- A working directory with nothing in it. -/
def empty : FileTree := ⟨[], []⟩

/-- The names of a path, in order; a slash at its start or end gives an empty name. -/
def names (path : String) : List String := (path.toList.splitOn '/').map String.ofList

/-- The place from which a path starts: the root, or else the working directory. -/
def start (path : String) : List String := if path.startsWith "/" then ["/"] else []

/-- Whether a name leads somewhere without being that of an entry. -/
def isDetour (name : String) : Bool := name = "" || name = "." || name = ".."

/-- Where a name leads from a directory.  The root is its own parent. -/
def step (here : List String) (name : String) : List String :=
  if name = "" ∨ name = "." then here
  else if name = ".." then
    match here.getLast? with
    | none | some ".." => here ++ [".."]
    | some "/" => here
    | some _ => here.dropLast
  else here ++ [name]

/-- The tree with all places on the way from a directory as directories, and the last place. -/
def makeWay (t : FileTree) (here : List String) : List String → FileTree × List String
  | [] => (t, here)
  | name :: rest =>
    let next := step here name
    makeWay ⟨next :: t.directories, t.files⟩ next rest

/-- The tree with a directory at the path. -/
def makeDirectory (t : FileTree) (path : String) : FileTree :=
  (t.makeWay (start path) (names path)).1

/-- The tree with a file at the path. -/
def writeFile (t : FileTree) (path : String) (contents : List UInt8) : FileTree :=
  let (made, here) := t.makeWay (start path) (names path).dropLast
  ⟨made.directories, (step here ((names path).getLastD ""), contents) :: made.files⟩

/-- What stands at a place. -/
def entry? (t : FileTree) (place : List String) : Option Entry :=
  match t.files.find? (·.1 = place) with
  | some (_, contents) => some (.file contents)
  | none => if place ∈ t.directories then some .directory else none

/-- The bytes that one name may have. -/
def nameLimit : Nat := 255

/-- The bytes that a path may have, and one more. -/
def pathLimit : Nat := 4096

/-- Walks the rest of a path from a directory. -/
def walk (t : FileTree) (here : List String) : List String → Except ReadFailure (List UInt8)
  | [] => .error .isADirectory
  | name :: rest =>
    let next := step here name
    if isDetour name then walk t next rest
    else if nameLimit < name.utf8ByteSize then .error .nameTooLong
    else
      match t.entry? next with
      | none => .error .notFound
      | some .directory => walk t next rest
      | some (.file contents) => if rest = [] then .ok contents else .error .notADirectory

/-- Reads the file at a path. -/
def read (t : FileTree) (path : String) : Except ReadFailure (List UInt8) :=
  if path = "" then .error .notFound
  else if pathLimit ≤ path.utf8ByteSize then .error .nameTooLong
  else t.walk (start path) (names path)

end FileTree

end LoxScan
