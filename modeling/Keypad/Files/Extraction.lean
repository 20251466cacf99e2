import Keypad.Files.Tree

/-! # Extracting members

A name of a zip or tar archive stands for the last member stored under it, which is read in place.
The members of a 7z archive are unpacked first: those stored under the name are put into an empty
directory, the later ones under longer names, and the name is then read there as a path.  So the
first one counts, and what holds for the names of files holds for the names of members. -/

namespace Keypad

/-- Why the member that a name stands for cannot be read. -/
inductive MemberError where
  /-- The member holds no data. -/
  | noData
  /-- The path of a member leads out of the directory for unpacking. -/
  | outside (name : String)
  /-- The member cannot be unpacked or read afterwards. -/
  | unpacked (error : FileError)
  deriving DecidableEq

namespace FileTree

/-- The longest path, in octets, below the directory for unpacking, whose own path takes 17. -/
def unpackLimit : Nat := pathLimit - 17

/-- The place below a directory that a name leads to from a place there: `..` takes back the name
before it, if there is one. -/
def placeAfter? (place : List String) (name : String) : Option (List String) :=
  if name ≠ ".." then some (place ++ [name])
  else if place.isEmpty then none
  else some place.dropLast

/-- The place below a directory that names lead to when every `..` takes back the name before it,
if there is one for each. -/
def placeBelow? (names : List String) : Option (List String) := names.foldlM placeAfter? []

/-- Whether a name begins with a backslash or with a drive letter, and so leads elsewhere on systems
that have drives.  Such names are refused on every system. -/
def namesDrive (name : String) : Bool :=
  match name.toList with
  | '\\' :: _ => true
  | c :: ':' :: _ => c.isAlpha
  | _ => false

/-- The tree with a member unpacked under a name. -/
def unpack (t : FileTree) (name : String) (m : Member) : Except MemberError FileTree :=
  let p := Path.ofText name
  match if p.root.isEmpty && !namesDrive name then placeBelow? p.names else none with
  | none => .error (.outside name)
  | some place =>
    if unpackLimit < name.utf8ByteSize || place.any isTooLong then
      .error (.unpacked .nameTooLong)
    else .ok (t.add ⟨"", place⟩ (m.octets.elim .directory fun octets => .file (.plain octets)))

end FileTree

namespace ArchiveFormat

/-- The name under which the member with a number, of those stored under one name, is unpacked. -/
def unpackedName (name : String) : Nat → String
  | 0 => name
  | n + 1 => s!"{name}_{n}"

/-- The tree of the unpacked members that are stored under a name. -/
def unpackNamed (members : List Member) (name : String) : Except MemberError FileTree :=
  ((membersNamed .sevenZip members name).zipIdx).foldlM
    (fun t (m, n) => t.unpack (unpackedName name n) m) .empty

/-- The octets that a name of a 7z archive stands for. -/
def readUnpacked (members : List Member) (name : String) : Except MemberError (List UInt8) := do
  let t ← unpackNamed members name
  let content ← (t.read (.ofText name)).mapError .unpacked
  return content.octets

/-- The octets of a member that is read in place.  A directory in a zip archive is an empty member,
one in a tar archive holds no data. -/
def octets? (format : ArchiveFormat) (m : Member) : Option (List UInt8) :=
  if format = .zip then some (m.octets.getD []) else m.octets

/-- The octets that a name of a zip or tar archive stands for. -/
def readInPlace (format : ArchiveFormat) (members : List Member) (name : String) :
    Except MemberError (List UInt8) :=
  ((format.membersNamed members name).getLast?.bind format.octets?).elim (.error .noData) .ok

/-- The octets that a name of an archive stands for. -/
def read (format : ArchiveFormat) (members : List Member) (name : String) :
    Except MemberError (List UInt8) :=
  if format = .sevenZip then readUnpacked members name else format.readInPlace members name

end ArchiveFormat

end Keypad
