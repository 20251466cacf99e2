import Keypad.Path

/-! # Archives

An archive is an ordered list of members, each a regular file or a directory.  The three formats
differ in the names that they store and in those that they list.

* `zip`: a directory is stored with a slash at its end.
* `tar.xz`: a directory is stored without a slash and not listed.
* `7z`: names are stored as paths, so a directory cannot be told from a file by its name. -/

namespace Keypad

/-- A format of archives. -/
inductive ArchiveFormat where
  | zip
  | tarXz
  | sevenZip
  deriving DecidableEq

/-- A member of an archive; a directory has no octets. -/
structure Member where
  name : String
  octets : Option (List UInt8)
  deriving DecidableEq

namespace Member

/-- Whether a member is a directory. -/
def isDirectory (m : Member) : Bool := m.octets.isNone

/-- A name with a slash at its end. -/
def slashed (name : String) : String :=
  if name.toList.getLast? == some '/' then name else name ++ "/"

/-- A name without the slashes at its end. -/
def unslashed (name : String) : String :=
  String.ofList (name.toList.reverse.dropWhile (· == '/')).reverse

/-- A name up to its first NUL. -/
def upToNul (name : String) : String := String.ofList (name.toList.takeWhile (· != '\x00'))

/-- Whether a name fits in a tar header, which holds up to 100 ASCII characters.  Other names are
stored beside the header. -/
def fitsHeader (name : String) : Bool := name.length ≤ 100 && name.toList.all (·.toNat < 128)

end Member

namespace ArchiveFormat

open Member (slashed unslashed upToNul fitsHeader)

/-- The octets that every archive of a format begins with. -/
def signature : ArchiveFormat → List UInt8
  | .zip => [0x50, 0x4b]
  | .tarXz => [0xfd, 0x37, 0x7a, 0x58, 0x5a, 0x00]
  | .sevenZip => [0x37, 0x7a, 0xbc, 0xaf, 0x27, 0x1c]

/-- The name under which a member is stored.  A NUL ends a name, and a tar name beside its header
loses the slashes at its end. -/
def storedName : ArchiveFormat → Member → String
  | .zip, m => upToNul (if m.isDirectory then slashed m.name else m.name)
  | .tarXz, m =>
    let name := if m.isDirectory then unslashed m.name else m.name
    if fitsHeader name then upToNul name else unslashed name
  | .sevenZip, m => upToNul (Path.ofText m.name).toText

/-- The name under which a member is listed, if it is. -/
def listedName? (format : ArchiveFormat) (m : Member) : Option String :=
  if format = .tarXz ∧ m.isDirectory then none else some (format.storedName m)

/-- The names that an archive lists, in its order. -/
def names (format : ArchiveFormat) (members : List Member) : List String :=
  members.filterMap format.listedName?

/-- The members that are stored under a name, in the order of the archive. -/
def membersNamed (format : ArchiveFormat) (members : List Member) (name : String) : List Member :=
  members.filter (format.storedName · == name)

end ArchiveFormat

end Keypad
