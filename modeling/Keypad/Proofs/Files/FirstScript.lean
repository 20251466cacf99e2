import Keypad.Proofs.Files.Unpacking
import Mathlib.Control.Monad.Basic
import Mathlib.Data.List.TakeWhile

/-! # The first script of an archive

The script of an archive should be its first regular file with the name of a script
(`firstScriptText`).  It is found by its name and read by its name, and both can miss it.

* A 7z archive lists directories like files.  One with the name of a script is taken for a script
  if it is listed first, and cannot be read (`ofMembers_of_directory`).
* A name that is stored repeatedly stands for its last member in a zip or tar archive
  (`exists_last`).  The text of that member is read instead, and a directory in a tar archive cannot
  be read.

Nothing else goes wrong (`extract_eq_firstScriptText_iff`), and whatever is read is the content of
some script (`exists_isScript_of_read`). -/

namespace Keypad

theorem Member.isDirectory_eq_false {m : Member} {octets : List UInt8}
    (h : m.octets = some octets) : m.isDirectory = false := by
  rw [isDirectory, h]
  rfl

namespace ArchiveFormat

/-- Whether a member is a script: a regular file with the name of a script. -/
def isScript (format : ArchiveFormat) (m : Member) : Bool :=
  !m.isDirectory && Script.isScriptName (format.storedName m)

/-- Whether a member is listed with the name of a script. -/
def isListedScript (format : ArchiveFormat) (m : Member) : Bool :=
  (format.listedName? m).any Script.isScriptName

/-- The text of octets that a member holds. -/
def memberText (format : ArchiveFormat) (octets : List UInt8) : Except ScriptError (List Char) :=
  (Script.decode octets).map fun text =>
    if format = .sevenZip then Text.unifyLineEnds text else text

/-- The text of the first script in an archive with a name. -/
def firstScriptText (format : ArchiveFormat) (members : List Member) (archive : String) :
    Except ScriptError (List Char) :=
  (members.find? format.isScript).elim (.error (.noScript archive)) fun m =>
    format.memberText (m.octets.getD [])

/-- What it takes that a member is read by its name: it is a regular file, and it can be unpacked
from a 7z archive, or the last member of its name in a zip or tar archive is a regular file with
the same text. -/
def IsReadBack (format : ArchiveFormat) (members : List Member) (m : Member) : Prop :=
  m.isDirectory = false ∧
    if format = .sevenZip then ∃ octets, readUnpacked members (format.storedName m) = .ok octets
    else ∃ last, (format.membersNamed members (format.storedName m)).getLast? = some last ∧
      last.isDirectory = false ∧
      Script.decode (last.octets.getD []) = Script.decode (m.octets.getD [])

/-- The zip directories among the members are stored with a slash at the end of their names. -/
def MarksDirectories (format : ArchiveFormat) (members : List Member) : Prop :=
  format = .zip → ∀ m ∈ members, m.isDirectory = true →
    (format.storedName m).toList.getLast? = some '/'

variable {format : ArchiveFormat} {members : List Member} {m : Member} {archive : String}

/-- Names without a NUL are stored whole, so the slash is there. -/
theorem marksDirectories_of_not_mem (h : ∀ m ∈ members, '\x00' ∉ m.name.toList) :
    format.MarksDirectories members := by
  rintro rfl m hm hdir
  have hlast : (Member.slashed m.name).toList.getLast? = some '/' := by
    unfold Member.slashed
    split
    · next hslash => exact beq_iff_eq.mp hslash
    · simp
  have hwhole : ∀ c ∈ (Member.slashed m.name).toList, (c != '\x00') = true := by
    intro c hc
    rw [bne_iff_ne]
    rintro rfl
    unfold Member.slashed at hc
    split at hc
    · exact h m hm hc
    · simp [h m hm] at hc
  rw [storedName, if_pos hdir, Member.upToNul, String.toList_ofList,
    List.takeWhile_eq_self_iff.mpr hwhole, hlast]

/-! ### The member that is found -/

theorem listedName?_of_isListedScript (h : format.isListedScript m = true) :
    format.listedName? m = some (format.storedName m) := by
  unfold isListedScript listedName? at *
  split at h
  · cases h
  · next hlisted => rw [if_neg hlisted]

theorem isDirectory_of_isScript (h : format.isScript m = true) : m.isDirectory = false := by
  rw [isScript, Bool.and_eq_true, Bool.not_eq_true'] at h
  exact h.1

theorem isListedScript_of_isScript (h : format.isScript m = true) :
    format.isListedScript m = true := by
  rw [isListedScript, listedName?, if_neg (by simp [isDirectory_of_isScript h])]
  exact (Bool.and_eq_true_iff.mp h).2

theorem isScriptName_of_isListedScript (h : format.isListedScript m = true) :
    Script.isScriptName (format.storedName m) = true := by
  have hlisted := listedName?_of_isListedScript h
  rwa [isListedScript, hlisted] at h

theorem isScript_of_isListedScript (h : format.isListedScript m = true)
    (hm : m.isDirectory = false) : format.isScript m = true := by
  rw [isScript, hm, isScriptName_of_isListedScript h]
  rfl

/-- The name of a script does not end in a slash. -/
theorem getLast?_ne_slash {name : String} (h : Script.isScriptName name = true) :
    name.toList.getLast? ≠ some '/' := by
  obtain ⟨start, hstart⟩ := List.isSuffixOf_iff_suffix.mp h
  have hlast : Script.textSuffix.toList.getLast? = some 't' := by decide
  rw [← hstart, List.getLast?_append, hlast]
  simp

theorem pick_names (members : List Member) (archive : String) :
    Script.pick (format.names members) archive =
      (members.find? format.isListedScript).elim (.error (.noScript archive)) fun m =>
        .ok (format.storedName m) := by
  rw [Script.pick, names, List.find?_filterMap]
  show Option.elim ((members.find? format.isListedScript).bind format.listedName?) _ _ = _
  cases hfind : members.find? format.isListedScript with
  | none => rfl
  | some m =>
    rw [Option.bind_some, listedName?_of_isListedScript (List.find?_some hfind)]
    rfl

/-- A zip archive stores no directory under the name of a script. -/
theorem isDirectory_eq_false_of_zip (hslash : MarksDirectories .zip members) (hm : m ∈ members)
    (hname : Script.isScriptName (storedName .zip m) = true) : m.isDirectory = false := by
  cases hdir : m.isDirectory with
  | false => rfl
  | true => exact absurd (hslash rfl m hm hdir) (getLast?_ne_slash hname)

/-- Only a 7z archive lists directories with the names of scripts. -/
theorem isDirectory_eq_false (hslash : format.MarksDirectories members)
    (hformat : format ≠ .sevenZip) (hm : m ∈ members) (h : format.isListedScript m = true) :
    m.isDirectory = false := by
  cases format with
  | zip => exact isDirectory_eq_false_of_zip hslash hm (isScriptName_of_isListedScript h)
  | tarXz =>
    cases hdir : m.isDirectory with
    | false => rfl
    | true => simp [isListedScript, listedName?, hdir] at h
  | sevenZip => exact absurd rfl hformat

/-! ### The member that is read -/

/-- The listed script that is found is the first member stored under its name in a 7z archive. -/
theorem head?_membersNamed (h : members.find? (isListedScript .sevenZip) = some m) :
    (membersNamed .sevenZip members (storedName .sevenZip m)).head? = some m := by
  obtain ⟨hm, before, after, rfl, hbefore⟩ := List.find?_eq_some_iff_append.mp h
  rw [membersNamed, List.head?_filter, List.find?_append, List.find?_eq_none.mpr, Option.none_or,
    List.find?_cons_of_pos (by simp)]
  intro other hother hname
  -- with the same name it would have been found
  have hlisted : isListedScript .sevenZip other = isListedScript .sevenZip m := by
    simp [isListedScript, listedName?, beq_iff_eq.mp hname]
  simpa [hlisted, hm] using hbefore other hother

/-- What a name stands for in a zip or tar archive: the last member stored under it, if that is a
regular file. -/
theorem exists_last (hslash : format.MarksDirectories members) (hformat : format ≠ .sevenZip)
    (hm : m ∈ members) (hname : Script.isScriptName (format.storedName m) = true) :
    ∃ last ∈ members, (format.membersNamed members (format.storedName m)).getLast? = some last ∧
      format.storedName last = format.storedName m ∧
      format.read members (format.storedName m) =
        if last.isDirectory then .error .noData else .ok (last.octets.getD []) := by
  have hne : format.membersNamed members (format.storedName m) ≠ [] :=
    List.ne_nil_of_mem (List.mem_filter.mpr ⟨hm, by simp⟩)
  obtain ⟨hmem, hsame⟩ := List.mem_filter.mp (List.getLast_mem hne)
  have hlast := List.getLast?_eq_some_getLast hne
  generalize List.getLast _ hne = last at hmem hsame hlast
  rw [beq_iff_eq] at hsame
  refine ⟨last, hmem, hlast, hsame, ?_⟩
  rw [read, if_neg hformat, readInPlace, hlast, Option.bind_some]
  cases format with
  | zip =>
    rw [isDirectory_eq_false_of_zip hslash hmem (hsame ▸ hname)]
    rfl
  | tarXz =>
    rw [octets?, if_neg (by decide), Member.isDirectory]
    cases last.octets <;> rfl
  | sevenZip => exact absurd rfl hformat

/-! ### The text -/

theorem memberText_of_ne (hformat : format ≠ .sevenZip) (octets : List UInt8) :
    format.memberText octets = Script.decode octets := by
  rw [memberText]
  simp only [if_neg hformat]
  cases Script.decode octets <;> rfl

theorem memberText_ne_member (format : ArchiveFormat) (octets : List UInt8) (e : MemberError) :
    format.memberText octets ≠ .error (.member e) := by
  rw [memberText, Script.decode]
  cases Text.decodeUtf8 octets <;> exact nofun

theorem firstScriptText_ne_member (format : ArchiveFormat) (members : List Member)
    (archive : String) (e : MemberError) :
    format.firstScriptText members archive ≠ .error (.member e) := by
  rw [firstScriptText]
  cases members.find? format.isScript with
  | none => exact nofun
  | some m => exact memberText_ne_member format _ e

theorem firstScriptText_of_listed (hfind : members.find? format.isListedScript = some m)
    (hm : m.isDirectory = false) :
    format.firstScriptText members archive = format.memberText (m.octets.getD []) := by
  obtain ⟨hlisted, before, after, rfl, hbefore⟩ := List.find?_eq_some_iff_append.mp hfind
  have hnone : before.find? format.isScript = none := by
    rw [List.find?_eq_none]
    intro other hother h
    simpa [isListedScript_of_isScript h] using hbefore other hother
  rw [firstScriptText, List.find?_append, hnone, Option.none_or,
    List.find?_cons_of_pos (isScript_of_isListedScript hlisted hm)]
  rfl

end ArchiveFormat

namespace Script

open ArchiveFormat

variable {format : ArchiveFormat} {members : List Member} {m : Member} {archive : String}

theorem ofMembers_of_find?_eq_none (hfind : members.find? format.isListedScript = none) :
    ofMembers format members archive = .error (.noScript archive) := by
  rw [ofMembers, pick_names, hfind]
  rfl

theorem ofMembers_of_read_eq_error {e : MemberError}
    (hfind : members.find? format.isListedScript = some m)
    (hread : format.read members (format.storedName m) = .error e) :
    ofMembers format members archive = .error (.member e) := by
  rw [ofMembers, pick_names, hfind, Option.elim_some, ok_bind, hread]
  rfl

theorem ofMembers_of_read_eq_ok {octets : List UInt8}
    (hfind : members.find? format.isListedScript = some m)
    (hread : format.read members (format.storedName m) = .ok octets) :
    ofMembers format members archive = format.memberText octets := by
  rw [ofMembers, pick_names, hfind, Option.elim_some, ok_bind, hread]
  show (decode octets >>= fun text =>
    pure (if format = .sevenZip then Text.unifyLineEnds text else text)) = _
  rw [memberText]
  cases decode octets <;> rfl

/-- **A directory** that a 7z archive lists first of the names of scripts is taken for the
script. -/
theorem ofMembers_of_directory {members : List Member}
    (hfind : members.find? (isListedScript .sevenZip) = some m) (hdir : m.isDirectory = true)
    (hname : IsOrdinary (storedName .sevenZip m))
    (honce : membersNamed .sevenZip members (storedName .sevenZip m) = [m]) :
    ofMembers .sevenZip members archive = .error (.member (.unpacked .isDirectory)) := by
  have hoctets : m.octets = none := by simpa [Member.isDirectory] using hdir
  have hread := readUnpacked_of_isOrdinary hname honce
  rw [hoctets] at hread
  exact ofMembers_of_read_eq_error hfind hread

/-- Whatever is read is the content of a script. -/
theorem exists_isScript_of_read {octets : List UInt8} (hslash : format.MarksDirectories members)
    (hfind : members.find? format.isListedScript = some m)
    (hread : format.read members (format.storedName m) = .ok octets) :
    ∃ other ∈ members, format.isScript other = true ∧ other.octets = some octets := by
  have hm := List.mem_of_find?_eq_some hfind
  have hlisted := List.find?_some hfind
  have hname := isScriptName_of_isListedScript hlisted
  by_cases hformat : format = .sevenZip
  · subst hformat
    have hoctets := octets_of_readUnpacked hname (head?_membersNamed hfind) hread
    have hfile := Member.isDirectory_eq_false hoctets
    exact ⟨m, hm, isScript_of_isListedScript hlisted hfile, hoctets⟩
  · obtain ⟨last, hmem, -, hsame, hlast⟩ := exists_last hslash hformat hm hname
    rw [hlast] at hread
    cases hoctets : last.octets with
    | none =>
      rw [Member.isDirectory, hoctets] at hread
      cases hread
    | some held =>
      have hfile := Member.isDirectory_eq_false hoctets
      rw [hfile, hoctets] at hread
      cases hread
      refine ⟨last, hmem, ?_, hoctets⟩
      rw [isScript, hsame, hname, hfile]
      rfl

theorem ofMembers_sevenZip_eq_iff (hfind : members.find? (isListedScript .sevenZip) = some m) :
    ofMembers .sevenZip members archive = firstScriptText .sevenZip members archive ↔
      IsReadBack .sevenZip members m := by
  cases hread : read .sevenZip members (storedName .sevenZip m) with
  | error e =>
    refine iff_of_false ?_ ?_
    · rw [ofMembers_of_read_eq_error hfind hread]
      exact (firstScriptText_ne_member _ _ _ e).symm
    · rintro ⟨-, octets, hok⟩
      cases hok.symm.trans hread
  | ok octets =>
    have hname := isScriptName_of_isListedScript (List.find?_some hfind)
    have hoctets := octets_of_readUnpacked hname (head?_membersNamed hfind) hread
    have hfile := Member.isDirectory_eq_false hoctets
    refine iff_of_true ?_ ⟨hfile, octets, hread⟩
    rw [ofMembers_of_read_eq_ok hfind hread, firstScriptText_of_listed hfind hfile, hoctets]
    rfl

theorem ofMembers_eq_iff_of_ne (hslash : format.MarksDirectories members)
    (hformat : format ≠ .sevenZip) (hfind : members.find? format.isListedScript = some m) :
    ofMembers format members archive = format.firstScriptText members archive ↔
      format.IsReadBack members m := by
  have hm := List.mem_of_find?_eq_some hfind
  have hlisted := List.find?_some hfind
  have hfile := isDirectory_eq_false hslash hformat hm hlisted
  obtain ⟨last, -, hlast, -, hread⟩ :=
    exists_last hslash hformat hm (isScriptName_of_isListedScript hlisted)
  rw [firstScriptText_of_listed hfind hfile, IsReadBack, if_neg hformat, hlast]
  cases hdir : last.isDirectory with
  | true =>
    rw [hdir] at hread
    refine iff_of_false ?_ ?_
    · rw [ofMembers_of_read_eq_error hfind hread]
      exact (memberText_ne_member _ _ _).symm
    · rintro ⟨-, _, ⟨⟩, hregular, -⟩
      cases hregular.symm.trans hdir
  | false =>
    rw [hdir] at hread
    rw [ofMembers_of_read_eq_ok hfind hread, memberText_of_ne hformat, memberText_of_ne hformat]
    simp [hfile, hdir]

/-- **The first script** is what an archive yields, exactly if it is read by its name. -/
theorem ofMembers_eq_firstScriptText_iff (hslash : format.MarksDirectories members) :
    ofMembers format members archive = format.firstScriptText members archive ↔
      ∀ m, members.find? format.isListedScript = some m → format.IsReadBack members m := by
  cases hfind : members.find? format.isListedScript with
  | none =>
    have hnone : members.find? format.isScript = none := List.find?_eq_none.mpr fun m hm h =>
      List.find?_eq_none.mp hfind m hm (isListedScript_of_isScript h)
    refine iff_of_true ?_ nofun
    rw [ofMembers_of_find?_eq_none hfind, firstScriptText, hnone]
    rfl
  | some m =>
    simp only [Option.some.injEq, forall_eq']
    by_cases hformat : format = .sevenZip
    · subst hformat
      exact ofMembers_sevenZip_eq_iff hfind
    · exact ofMembers_eq_iff_of_ne hslash hformat hfind

theorem extract_of_read {t : FileTree} {p : Path} (hread : t.read p = .ok (.archive format members))
    (hformat : format? p = some format) : extract t p = ofMembers format members p.name := by
  rw [extract, hformat, if_neg (by simp), hread]
  show ofArchiveFile p (.archive format members) = _
  rw [ofArchiveFile, hformat]
  exact if_pos rfl

/-- **An archive yields its first script** exactly if the first member that is listed with the name
of a script is read by its name.  If none is listed, there is none, and the error says so. -/
theorem extract_eq_firstScriptText_iff {t : FileTree} {p : Path} {format : ArchiveFormat}
    {members : List Member} (hread : t.read p = .ok (.archive format members))
    (hformat : format? p = some format) (hslash : format.MarksDirectories members) :
    extract t p = format.firstScriptText members p.name ↔
      ∀ m, members.find? format.isListedScript = some m → format.IsReadBack members m := by
  rw [extract_of_read hread hformat]
  exact ofMembers_eq_firstScriptText_iff hslash

/-- A script in a folder of a zip archive is extracted. -/
theorem extract_from_folder :
    let script : Member := ⟨"docs/keys.txt", some "1 + 1 =\n".toUTF8.toList⟩
    let members : List Member := [⟨"docs", none⟩, ⟨"docs/about.md", some []⟩, script]
    let t : FileTree := ⟨[], [(["keys.zip"], .file (.archive .zip members))]⟩
    t.read ⟨"", ["keys.zip"]⟩ = .ok (.archive .zip members) ∧
      format? ⟨"", ["keys.zip"]⟩ = some .zip ∧ MarksDirectories .zip members ∧
      IsReadBack .zip members script ∧ extract t ⟨"", ["keys.zip"]⟩ = .ok "1 + 1 =\n".toList := by
  intro script members t
  have hread : t.read ⟨"", ["keys.zip"]⟩ = .ok (.archive .zip members) :=
    FileTree.read_name (by simp) (by decide) (by decide) rfl
  have hformat : format? ⟨"", ["keys.zip"]⟩ = some .zip := by decide +kernel
  have hslash : MarksDirectories .zip members := marksDirectories_of_not_mem (by decide)
  have hback : IsReadBack .zip members script :=
    ⟨rfl, script, by decide +kernel, rfl, rfl⟩
  have hfind : members.find? (isListedScript .zip) = some script := by decide +kernel
  have hextract := (extract_eq_firstScriptText_iff hread hformat hslash).mpr fun m hm => by
    cases hfind.symm.trans hm
    exact hback
  exact ⟨hread, hformat, hslash, hback, hextract.trans (by decide +kernel)⟩

/-- A directory in front of the only script of a 7z archive is taken for the script. -/
theorem extract_directory_first :
    let members : List Member :=
      [⟨"scripts.txt", none⟩, ⟨"scripts.txt/keys.txt", some "6 / 3 =\n".toUTF8.toList⟩]
    let t : FileTree := ⟨[], [(["v1.2.7z"], .file (.archive .sevenZip members))]⟩
    extract t ⟨"", ["v1.2.7z"]⟩ = .error (.member (.unpacked .isDirectory)) ∧
      firstScriptText .sevenZip members "v1.2.7z" = .ok "6 / 3 =\n".toList := by
  intro members t
  refine ⟨?_, by decide +kernel⟩
  have hread : t.read ⟨"", ["v1.2.7z"]⟩ = .ok (.archive .sevenZip members) :=
    FileTree.read_name (by simp) (by decide) (by decide) rfl
  have hstored : storedName .sevenZip ⟨"scripts.txt", none⟩ = "scripts.txt" := by decide +kernel
  have hname : IsOrdinary (storedName .sevenZip ⟨"scripts.txt", none⟩) := by
    rw [hstored]
    exact .of_name (by decide +kernel) (by decide) (by decide) (by decide) (by simp) (by decide)
  rw [extract_of_read hread (by decide +kernel)]
  exact ofMembers_of_directory (by decide +kernel) rfl hname (by decide +kernel)

/-- In a zip archive the last member of a name is read in place of the first. -/
example : ofMembers .zip [⟨"a.txt", some "1".toUTF8.toList⟩, ⟨"a.txt", some "2".toUTF8.toList⟩] "" =
    .ok ['2'] := by
  decide +kernel

end Script

end Keypad
