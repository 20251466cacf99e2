import Keypad.Files.Extraction
import Keypad.Text.Line
import Keypad.Text.Utf8
import Keypad.Transcript

/-! # Scripts in files

A script is read from a `.txt` file, or from the first `.txt` file that a `.zip`, `.tar.xz` or `.7z`
archive lists.  Which of these a file is, its suffixes say.  The line ends of plain files and of 7z
members are unified; all texts are UTF-8.  A transcript is written only after the whole script has
been replayed. -/

namespace Keypad

/-- Why a script cannot be replayed. -/
inductive ScriptError where
  | file (error : FileError)
  | undecodable (error : Text.Utf8Error)
  /-- The file does not hold an archive of the format that its name promises. -/
  | notArchive (format : ArchiveFormat)
  /-- The archive with this name lists no script. -/
  | noScript (archive : String)
  /-- The name has none of the known suffixes. -/
  | unsupported (name : String)
  | member (error : MemberError)
  | key (failure : Transcript.Failure)
  deriving DecidableEq

namespace Script

/-- The suffix of the files that hold scripts. -/
def textSuffix : String := ".txt"

/-- The archive format that the suffixes of a path promise. -/
def format? (p : Path) : Option ArchiveFormat :=
  let suffixes := p.suffixes
  if p.suffix = ".zip" then some .zip
  else if suffixes.drop (suffixes.length - 2) = [".tar", ".xz"] then some .tarXz
  else if p.suffix = ".7z" then some .sevenZip
  else none

/-- Whether a member name is that of a script. -/
def isScriptName (name : String) : Bool := textSuffix.toList.isSuffixOf name.toList

/-- The first script among the names that an archive lists. -/
def pick (names : List String) (archive : String) : Except ScriptError String :=
  (names.find? isScriptName).elim (.error (.noScript archive)) .ok

/-- The text of octets. -/
def decode (octets : List UInt8) : Except ScriptError (List Char) :=
  (Text.decodeUtf8 octets).mapError .undecodable

/-- The text of the script in an archive. -/
def ofMembers (format : ArchiveFormat) (members : List Member) (archive : String) :
    Except ScriptError (List Char) := do
  let name ← pick (format.names members) archive
  let octets ← (format.read members name).mapError .member
  let text ← decode octets
  return if format = .sevenZip then Text.unifyLineEnds text else text

/-- The text of the script in an archive file, given the path and the content of the file. -/
def ofArchiveFile (p : Path) (content : Content) : Except ScriptError (List Char) :=
  match format? p with
  | none => .error (.unsupported p.name)
  | some format =>
    match content with
    | .archive held members =>
      if held = format then ofMembers format members p.name else .error (.notArchive format)
    | .plain _ => .error (.notArchive format)

/-- The text of a script, given the path and the content of its file. -/
def ofFile (p : Path) (content : Content) : Except ScriptError (List Char) :=
  if p.suffix = textSuffix then (decode content.octets).map Text.unifyLineEnds
  else ofArchiveFile p content

/-- The text of the script in the archive at a path.  A path that promises no archive is not even
looked up. -/
def extract (t : FileTree) (p : Path) : Except ScriptError (List Char) :=
  if (format? p).isNone then .error (.unsupported p.name)
  else do
    let content ← (t.read p).mapError .file
    ofArchiveFile p content

/-- The text of the script at a path. -/
def load (t : FileTree) (p : Path) : Except ScriptError (List Char) :=
  if p.suffix = textSuffix then do
    let content ← (t.read p).mapError .file
    ofFile p content
  else extract t p

/-- Replays the text of a script: the log entries and the transcript. -/
def transcribe (settings : Settings) (text : List Char) :
    List Log.Entry × Except ScriptError (List String) :=
  let (log, result) := Transcript.replay settings (Transcript.scriptLines text)
  (log, result.mapError .key)

/-- The log entry of a written transcript. -/
def writtenEntry (count : Nat) (output : Path) : Log.Entry :=
  ⟨.info, s!"📄✅ Wrote {count} lines to " ++ output.toText⟩

/-- What a replay leaves behind: its log, the files, and the error that ended it, if any. -/
structure Run where
  log : List Log.Entry
  tree : FileTree
  error : Option ScriptError

/-- Replays the script at a path and writes its transcript to another path.  Nothing is written
before the whole script has been replayed. -/
def replay (settings : Settings) (t : FileTree) (input output : Path) : Run :=
  match load t input with
  | .error e => ⟨[], t, some e⟩
  | .ok text =>
    match transcribe settings text with
    | (log, .error e) => ⟨log, t, some e⟩
    | (log, .ok entries) =>
      match t.write output (Transcript.text entries).toUTF8.toList with
      | .error e => ⟨log, t, some (.file e)⟩
      | .ok after => ⟨log ++ [writtenEntry entries.length output], after, none⟩

end Script

namespace ScriptError

/-- The text of an octet in an error message. -/
def octetText (b : UInt8) : String := "0x" ++ String.ofList (Text.hexDigits 2 b.toNat)

/-- Where undecodable octets stand. -/
def spanText (e : Text.Utf8Error) : String :=
  if e.stop = e.first + 1 then s!"byte {octetText e.octet} in position {e.first}"
  else s!"bytes in position {e.first}-{e.stop - 1}"

/-- The message for a file that is no archive. -/
def notArchiveMessage : ArchiveFormat → String
  | .zip => "File is not a zip file"
  | .tarXz => "not an lzma file"
  | .sevenZip => "not a 7z file"

/-- The message for a file that cannot be reached; the operating system words its own errors. -/
def fileMessage? : FileError → Option String
  | .nulInName => some "embedded null byte"
  | _ => none

/-- The message for a script that cannot be replayed, if it has one. -/
def message? : ScriptError → Option String
  | .file e => fileMessage? e
  | .undecodable e =>
    some ("'utf-8' codec can't decode " ++ spanText e ++ ": " ++ e.fault.reason)
  | .notArchive format => some (notArchiveMessage format)
  | .noScript archive => some ("⌨️❌ No .txt key script inside " ++ archive)
  | .unsupported name => some ("⌨️❌ Unsupported key script archive: " ++ name)
  | .member .noData => some "'NoneType' object has no attribute 'read'"
  | .member (.outside name) => some ("Specified path is bad: " ++ name)
  | .member (.unpacked e) => fileMessage? e
  | .key failure => some failure.message

end ScriptError

end Keypad
