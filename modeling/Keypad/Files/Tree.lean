import Keypad.Files.Archive
import Keypad.Path

/-! # Trees of files

A tree begins at the root and holds files and directories, the working directory among them.  What a
file holds is either plain octets or an archive.  Paths are followed name by name, those with a root
from the root and the others from the working directory: every name but the last must be a
directory, and `..` leads back to the directory above, which for the root is the root itself. -/

namespace Keypad

/-- What a file holds. -/
inductive Content where
  | plain (octets : List UInt8)
  | archive (format : ArchiveFormat) (members : List Member)
  deriving DecidableEq

/-- The octets of a file; of an archive only the signature is known. -/
def Content.octets : Content → List UInt8
  | .plain octets => octets
  | .archive format _ => format.signature

/-- A place in a tree. -/
inductive Node where
  | directory
  | file (content : Content)
  deriving DecidableEq

/-- Why a path leads nowhere. -/
inductive FileError where
  | notFound
  | notDirectory
  | isDirectory
  | nameTooLong
  | nulInName
  deriving DecidableEq

/-- The files and directories, each with the names that lead to it from the root.  The working
directory, which the names of `home` lead to, and those on the way to it are always there. -/
structure FileTree where
  home : List String
  nodes : List (List String × Node)
  deriving DecidableEq

namespace FileTree

/-- A working directory below the root, and no file. -/
def empty : FileTree := ⟨["work"], []⟩

/-- The node that names lead to from the root. -/
def node? (t : FileTree) (names : List String) : Option Node :=
  if names.isPrefixOf t.home then some .directory
  else (t.nodes.find? (·.1 = names)).map (·.2)

/-- The tree with a node put in a place. -/
def put (t : FileTree) (names : List String) (node : Node) : FileTree :=
  if t.nodes.any (·.1 = names) then
    { t with nodes := t.nodes.map fun entry => if entry.1 = names then (names, node) else entry }
  else { t with nodes := t.nodes ++ [(names, node)] }

/-- The tree with the directories that names lead through. -/
def makeParents (t : FileTree) (names : List String) : FileTree :=
  (List.range (names.length - 1)).foldl (fun t n =>
    let parent := names.take (n + 1)
    if (t.node? parent).isSome then t else t.put parent .directory) t

/-- The directory that a path begins at. -/
def start (t : FileTree) (p : Path) : List String := if p.root.isEmpty then t.home else []

/-- The tree with a node and the directories that lead to it. -/
def add (t : FileTree) (p : Path) (node : Node) : FileTree :=
  let place := t.start p ++ p.names
  (t.makeParents place).put place node

/-- The longest name of a file, in octets. -/
def nameLimit : Nat := 255

/-- The longest path, in octets. -/
def pathLimit : Nat := 4095

/-- Whether a name is too long for a file. -/
def isTooLong (name : String) : Bool := nameLimit < name.utf8ByteSize

/-- Follows names from a directory. -/
def follow (t : FileTree) (here : List String) : List String → Except FileError (List String)
  | [] => .ok here
  | name :: rest =>
    match t.node? here with
    | none => .error .notFound
    | some (.file _) => .error .notDirectory
    | some .directory =>
      if name = ".." then t.follow here.dropLast rest
      else if isTooLong name then .error .nameTooLong
      else t.follow (here ++ [name]) rest

/-- The place that a path leads to, whether or not anything is there. -/
def locate (t : FileTree) (p : Path) : Except FileError (List String) :=
  if p.names.any (·.contains '\x00') then .error .nulInName
  else if pathLimit < p.toText.utf8ByteSize then .error .nameTooLong
  else t.follow (t.start p) p.names

/-- What the file at a path holds. -/
def read (t : FileTree) (p : Path) : Except FileError Content := do
  let names ← t.locate p
  match t.node? names with
  | none => .error .notFound
  | some .directory => .error .isDirectory
  | some (.file content) => .ok content

/-- The tree with plain octets written to the file at a path. -/
def write (t : FileTree) (p : Path) (octets : List UInt8) : Except FileError FileTree := do
  let names ← t.locate p
  if t.node? names = some .directory then .error .isDirectory
  else .ok (t.put names (.file (.plain octets)))

/-- The path of a place: from the working directory if it is below it, from the root otherwise. -/
def pathOf (t : FileTree) (place : List String) : Path :=
  if t.home.isPrefixOf place then ⟨"", place.drop t.home.length⟩ else ⟨"/", place⟩

/-- The files of a tree that are new or different from those of an earlier tree. -/
def changes (before after : FileTree) : List (Path × Content) :=
  after.nodes.filterMap fun (names, node) =>
    match node with
    | .directory => none
    | .file content =>
      if before.node? names = some node then none else some (after.pathOf names, content)

end FileTree

end Keypad
