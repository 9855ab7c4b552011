import EntityScripting.Files.Basic
import EntityScripting.SortedMap
import EntityScripting.Text.Utf8

/-!
# File trees

A directory with all that is below it, as a value. A path is followed one name at a time from the
directory down; an absolute path leads nowhere, and neither does one that leaves the directory
upwards.
-/

namespace EntityScripting

open Text

/-- The files and directories by their names from the top; the top itself is not among them. -/
structure FileTree where
  entries : SortedMap (List String) (Option Bytes) := {}
deriving DecidableEq, Repr, Inhabited

namespace FileTree

/-- What is at a place: a directory, or a file with its bytes. -/
inductive Node where
  | directory
  | file (content : Bytes)
deriving DecidableEq, Repr, Inhabited

def node? (tree : FileTree) (names : List String) : Option Node :=
  if names.isEmpty then some .directory
  else (tree.entries.get? names).map fun
    | none => .directory
    | some content => .file content

/-- The longest name that a file can have, in bytes. -/
def longestName : Nat := 255

/-- The parts of a path between its slashes; the empty ones at the end say that it must be a
directory. -/
def partsOf (path : String) : List String := path.splitOn "/"

/-- The place that the parts of a path lead to, seen from a directory. The last name need not
exist. -/
def follow (tree : FileTree) : List String → List String → Except FileError (List String)
  | here, [] => .ok here
  | here, part :: rest =>
    match tree.node? here with
    | none => .error .notFound
    | some (.file _) => .error .notADirectory
    | some .directory =>
      if part.isEmpty ∨ part = "." then tree.follow here rest
      else if part = ".." then
        if here.isEmpty then .error .notFound else tree.follow here.dropLast rest
      else if longestName < part.utf8ByteSize then .error .nameTooLong
      else tree.follow (here ++ [part]) rest

/-- The place that a path leads to. -/
def locate (tree : FileTree) (path : String) : Except FileError (List String) :=
  if path.toList.contains '\x00' then .error .badName
  else if path.isEmpty ∨ path.startsWith "/" then .error .notFound
  else tree.follow [] (partsOf path)

/-- The bytes of a file. -/
def read (tree : FileTree) (path : String) : Except FileError Bytes := do
  match tree.node? (← tree.locate path) with
  | none => throw .notFound
  | some .directory => throw .isDirectory
  | some (.file content) => return content

/-- The text of a file. -/
def readText (tree : FileTree) (path : String) : Except FileError String := do
  match decode? (← tree.read path) with
  | some text => return text
  | none => throw .notText

/-- Puts a file in a directory that exists, in the place of the one that is there. -/
def writeText (tree : FileTree) (path text : String) : Except FileError FileTree := do
  let names ← tree.locate path
  if path.endsWith "/" then throw .isDirectory
  match tree.node? names with
  | some .directory => throw .isDirectory
  | _ => return ⟨tree.entries.insert names (some (utf8 text))⟩

/-- The tree with all directories above a place. -/
def withParents (tree : FileTree) (names : List String) : FileTree :=
  (List.range (names.length - 1)).foldl (fun tree n =>
    ⟨tree.entries.insert (names.take (n + 1)) none⟩) tree

/-- The tree with a file, or a directory, and all directories above it. -/
def place (tree : FileTree) (path : String) (content : Option Bytes) : FileTree :=
  let names := (partsOf path).filter fun part => !part.isEmpty ∧ part ≠ "."
  ⟨(tree.withParents names).entries.insert names content⟩

/-- The files of a tree as a program works on them. -/
def access : FileAccess (StateM FileTree) where
  readText path := return (← get).readText path
  writeText path text := do
    match (← get).writeText path text with
    | .ok tree =>
      set tree
      return .ok ()
    | .error e => return .error e

end FileTree

end EntityScripting
