import Keypad.Text.Blank
import Keypad.Text.Quoted

/-! # Paths

A path is a root (none, `/` or `//`) and names; empty names and the name `.` are dropped when a path
is read, `..` stays.  The suffixes of a path are the parts of its last name from the first point on,
points at the very start not counted; a name that ends in a point has none. -/

namespace Keypad

/-- A path. -/
structure Path where
  root : String
  names : List String
  deriving DecidableEq

namespace Path

/-- The root of a path text: two slashes at the start are kept, any other number is one. -/
def rootOf (cs : List Char) : String :=
  match (cs.takeWhile (· == '/')).length with
  | 0 => ""
  | 2 => "//"
  | _ => "/"

/-- Reads a path. -/
def ofText (s : String) : Path :=
  let cs := s.toList
  let parts := (Text.pieces (· == '/') cs).map String.ofList
  ⟨rootOf cs, parts.filter fun part => part != "" && part != "."⟩

/-- Writes a path. -/
def toText (p : Path) : String :=
  let text := p.root ++ "/".intercalate p.names
  if text.isEmpty then "." else text

/-- The last name of a path; a root has none. -/
def name (p : Path) : String := p.names.getLast?.getD ""

/-- Whether a character is a point. -/
def isPoint (c : Char) : Bool := c == '.'

/-- The suffixes of a name, each with its point. -/
def suffixesOf (name : List Char) : List (List Char) :=
  if name.getLast?.any isPoint then []
  else (Text.pieces isPoint (name.dropWhile isPoint)).tail.map ('.' :: ·)

/-- The suffixes of a path. -/
def suffixes (p : Path) : List String := (suffixesOf p.name.toList).map String.ofList

/-- The last suffix of a name: from its last point on, if characters stand on both sides. -/
def suffixOf (name : List Char) : List Char :=
  let after := (name.reverse.takeWhile (!isPoint ·)).reverse
  let before := name.take (name.length - (after.length + 1))
  if name.any isPoint && !before.isEmpty && !after.isEmpty then '.' :: after else []

/-- The last suffix of a path. -/
def suffix (p : Path) : String := String.ofList (suffixOf p.name.toList)

/-- A name with the points of its suffixes made underscores. -/
def flatName (name : List Char) : List Char :=
  let suffixes := (suffixesOf name).flatten
  name.take (name.length - suffixes.length) ++
    suffixes.map fun c => if isPoint c then '_' else c

/-- The end of the name of every transcript. -/
def transcriptEnd : String := "_display.txt"

/-- The name of the transcript of a script. -/
def transcriptName (name : String) : String :=
  String.ofList (flatName name.toList) ++ transcriptEnd

/-- A path without a last name. -/
structure NoName where
  path : Path
  deriving DecidableEq

/-- The message for a path without a last name. -/
def NoName.message (e : NoName) : String :=
  "PosixPath(" ++ Text.quoted e.path.toText ++ ") has an empty name"

/-- The path of the transcript: in the folder of the script, named after it. -/
def transcript (p : Path) : Except NoName Path :=
  if p.name.isEmpty then .error ⟨p⟩
  else .ok ⟨p.root, p.names.dropLast ++ [transcriptName p.name]⟩

end Path

end Keypad
