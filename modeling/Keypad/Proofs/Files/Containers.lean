import Keypad.Proofs.Files.FirstScript
import Keypad.Proofs.Path.Suffixes

/-! # Scripts in plain files and in archives

The line ends of plain files and of 7z members are unified and those of zip and tar members are not,
but the lines are the same (`transcribe_unifyLineEnds`).  So it does not matter for a run how the
octets of a script are stored, if only they are read (`replay_eq_replay_iff`).  The only script of a
zip archive is always read.  That of a tar archive is not read if a directory of the same name is
stored after it, and that of a 7z archive is not read if a directory with the name of a script is
listed before it. -/

namespace Keypad

namespace ArchiveFormat

variable {format : ArchiveFormat} {members : List Member} {m other : Member}

/-- What it takes that the only script of an archive is read.  In a tar archive it must be stored
last of its name, in a 7z archive it must be listed first of the names of scripts and be
unpacked. -/
def IsReached (members : List Member) (m : Member) : ArchiveFormat → Prop
  | .zip => True
  | .tarXz => (membersNamed .tarXz members (storedName .tarXz m)).getLast? = some m
  | .sevenZip => members.find? (isListedScript .sevenZip) = some m ∧
      ∃ octets, readUnpacked members (storedName .sevenZip m) = .ok octets

theorem isScript_of_only (honly : members.filter format.isScript = [m]) :
    m ∈ members ∧ format.isScript m = true :=
  List.mem_filter.mp (honly ▸ List.mem_singleton_self m)

theorem eq_of_only (honly : members.filter format.isScript = [m]) (hmem : other ∈ members)
    (h : format.isScript other = true) : other = m :=
  List.mem_singleton.mp (honly ▸ List.mem_filter.mpr ⟨hmem, h⟩)

theorem exists_find?_of_only (honly : members.filter format.isScript = [m]) :
    ∃ found, members.find? format.isListedScript = some found := by
  obtain ⟨hm, hscript⟩ := isScript_of_only honly
  exact Option.isSome_iff_exists.mp
    (List.find?_isSome.mpr ⟨m, hm, isListedScript_of_isScript hscript⟩)

/-- A regular file that is found is the only script. -/
theorem eq_of_find? (honly : members.filter format.isScript = [m])
    (hfind : members.find? format.isListedScript = some other) (hfile : other.isDirectory = false) :
    other = m :=
  eq_of_only honly (List.mem_of_find?_eq_some hfind)
    (isScript_of_isListedScript (List.find?_some hfind) hfile)

/-- The only script is reached exactly if what is found is read by its name. -/
theorem isReached_iff (hslash : format.MarksDirectories members)
    (honly : members.filter format.isScript = [m]) : format.IsReached members m ↔
      ∀ found, members.find? format.isListedScript = some found →
        format.IsReadBack members found := by
  obtain ⟨hm, hscript⟩ := isScript_of_only honly
  have hfile := isDirectory_of_isScript hscript
  obtain ⟨found, hfind⟩ := exists_find?_of_only honly
  have hfound := List.mem_of_find?_eq_some hfind
  by_cases hformat : format = .sevenZip
  · subst hformat
    constructor
    · rintro ⟨hfirst, hunpacked⟩ _ hother
      cases hfirst.symm.trans hother
      exact ⟨hfile, hunpacked⟩
    · intro h
      obtain ⟨hregular, hunpacked⟩ := h found hfind
      cases eq_of_find? honly hfind hregular
      exact ⟨hfind, hunpacked⟩
  · -- elsewhere the only script is found, and what is stored last of its name decides
    have hlisted := List.find?_some hfind
    cases eq_of_find? honly hfind (isDirectory_eq_false hslash hformat hfound hlisted)
    have hname := isScriptName_of_isListedScript hlisted
    obtain ⟨last, hmem, hlast, hsame, -⟩ := exists_last hslash hformat hm hname
    have honce : last.isDirectory = false → last = m := fun hregular =>
      eq_of_only honly hmem (by rw [isScript, hregular, hsame, hname]; rfl)
    have hback : format.IsReadBack members m ↔ last = m := by
      rw [IsReadBack, if_neg hformat, hlast]
      constructor
      · rintro ⟨-, _, ⟨⟩, hregular, -⟩
        exact honce hregular
      · rintro rfl
        exact ⟨hfile, last, rfl, hfile, rfl⟩
    simp only [hfind, Option.some.injEq, forall_eq', hback]
    cases format with
    | zip =>
      have hregular := isDirectory_eq_false_of_zip hslash hmem (hsame ▸ hname)
      exact iff_of_true trivial (honce hregular)
    | tarXz => rw [IsReached, hlast, Option.some_inj]
    | sevenZip => exact absurd rfl hformat

/-- The only script of a 7z archive is reached if it is listed first and no other member has its
ordinary name. -/
theorem isReached_of_isOrdinary {octets : List UInt8}
    (hfind : members.find? (isListedScript .sevenZip) = some m)
    (hname : IsOrdinary (storedName .sevenZip m))
    (honce : membersNamed .sevenZip members (storedName .sevenZip m) = [m])
    (hoctets : m.octets = some octets) : IsReached members m .sevenZip := by
  refine ⟨hfind, octets, ?_⟩
  rw [readUnpacked_of_isOrdinary hname honce, hoctets]
  rfl

end ArchiveFormat

namespace Script

open ArchiveFormat

/-- How a run ends once the script has been replayed. -/
def writeTranscript (t : FileTree) (output : Path) :
    List Log.Entry × Except ScriptError (List String) → Run
  | (log, .error e) => ⟨log, t, some e⟩
  | (log, .ok entries) =>
    match t.write output (Transcript.text entries).toUTF8.toList with
    | .error e => ⟨log, t, some (.file e)⟩
    | .ok after => ⟨log ++ [writtenEntry entries.length output], after, none⟩

/-- How a run goes on once the text of the script is loaded, or is not. -/
def replayLoaded (settings : Settings) (t : FileTree) (output : Path) :
    Except ScriptError (List Char) → Run
  | .error e => ⟨[], t, some e⟩
  | .ok text => writeTranscript t output (transcribe settings text)

variable {settings : Settings} {t : FileTree} {input output : Path}

theorem replay_eq : replay settings t input output =
    replayLoaded settings t output (load t input) := rfl

/-- **Unified line ends** make no difference to a transcript. -/
theorem transcribe_unifyLineEnds (settings : Settings) (text : List Char) :
    transcribe settings (Text.unifyLineEnds text) = transcribe settings text := by
  rw [transcribe, transcribe, Transcript.scriptLines, Text.lines_unifyLineEnds,
    ← Transcript.scriptLines]

theorem replayLoaded_memberText (format : ArchiveFormat) (octets : List UInt8) :
    replayLoaded settings t output (format.memberText octets) =
      replayLoaded settings t output ((decode octets).map Text.unifyLineEnds) := by
  rw [memberText]
  cases decode octets with
  | error e => rfl
  | ok text =>
    show writeTranscript t output (transcribe settings _) =
      writeTranscript t output (transcribe settings _)
    rw [transcribe_unifyLineEnds]
    split
    · rw [transcribe_unifyLineEnds]
    · rfl

/-- Only the loading of a script ends in the error of a member. -/
theorem error_replayLoaded_ne {loaded : Except ScriptError (List Char)} {e : MemberError}
    (h : loaded ≠ .error (.member e)) :
    (replayLoaded settings t output loaded).error ≠ some (.member e) := by
  cases loaded with
  | error e' => simpa [replayLoaded] using h
  | ok text =>
    show (writeTranscript t output (_, Except.mapError .key
      (Transcript.replay settings (Transcript.scriptLines text)).2)).error ≠ _
    cases (Transcript.replay settings (Transcript.scriptLines text)).2 with
    | error failure => simp [Except.mapError, writeTranscript]
    | ok entries =>
      dsimp only [Except.mapError, writeTranscript]
      cases t.write output (Transcript.text entries).toUTF8.toList <;> simp

/-- A path that promises an archive is not that of a plain script. -/
theorem suffix_ne_textSuffix {p : Path} {format : ArchiveFormat} (h : format? p = some format) :
    p.suffix ≠ textSuffix := by
  intro htext
  unfold format? at h
  dsimp only at h
  rw [htext, if_neg (by decide), if_neg (c := textSuffix = ".7z") (by decide)] at h
  split at h
  · next hends =>
    have hlast : p.suffixes.getLast? = some ".xz" := by
      rw [← List.take_append_drop (p.suffixes.length - 2) p.suffixes, hends]
      simp
    rw [Path.suffix_eq_of_getLast?_suffixes hlast] at htext
    revert htext
    decide
  · cases h

theorem load_plain {octets : List UInt8} (hsuffix : input.suffix = textSuffix)
    (hread : t.read input = .ok (.plain octets)) :
    load t input = (decode octets).map Text.unifyLineEnds := by
  rw [load, if_pos hsuffix, hread]
  show ofFile input (.plain octets) = _
  rw [ofFile, if_pos hsuffix]
  rfl

theorem load_archive {format : ArchiveFormat} {members : List Member}
    (hformat : format? input = some format) (hread : t.read input = .ok (.archive format members)) :
    load t input = ofMembers format members input.name := by
  rw [load, if_neg (suffix_ne_textSuffix hformat), extract_of_read hread hformat]

/-- **The container of a script does not matter** as long as the script is reached in it.  If the
octets of a plain script are those of the only script of an archive, then the two runs are the same,
with the log, the files and the error that ended them, exactly if the script of the archive is
reached. -/
theorem replay_eq_replay_iff {plain archive : Path} {octets : List UInt8} {format : ArchiveFormat}
    {members : List Member} {m : Member} (hplain : t.read plain = .ok (.plain octets))
    (hsuffix : plain.suffix = textSuffix)
    (harchive : t.read archive = .ok (.archive format members))
    (hformat : format? archive = some format) (hslash : format.MarksDirectories members)
    (honly : members.filter format.isScript = [m]) (hoctets : m.octets = some octets) :
    replay settings t archive output = replay settings t plain output ↔
      format.IsReached members m := by
  have hiff : ofMembers format members archive.name = _ ↔ _ :=
    ofMembers_eq_firstScriptText_iff hslash
  rw [replay_eq, replay_eq, load_plain hsuffix hplain, load_archive hformat harchive,
    ← replayLoaded_memberText format octets, isReached_iff hslash honly, ← hiff]
  have hfirst : format.firstScriptText members archive.name = format.memberText octets := by
    rw [firstScriptText, ← List.head?_filter, honly]
    show format.memberText (m.octets.getD []) = _
    rw [hoctets]
    rfl
  rw [hfirst]
  obtain ⟨found, hfind⟩ := exists_find?_of_only honly
  cases hread : format.read members (format.storedName found) with
  | error e =>
    -- no plain script ends in the error of a member
    have herror : (replayLoaded settings t output (format.memberText octets)).error ≠
        some (.member e) := error_replayLoaded_ne (memberText_ne_member format octets e)
    rw [ofMembers_of_read_eq_error hfind hread]
    exact iff_of_false (fun heq => herror (congrArg Run.error heq).symm)
      (memberText_ne_member _ _ _).symm
  | ok held =>
    obtain ⟨other, hmem, hscript, hheld⟩ := exists_isScript_of_read hslash hfind hread
    cases eq_of_only honly hmem hscript
    cases hoctets.symm.trans hheld
    rw [ofMembers_of_read_eq_ok hfind hread]
    exact iff_of_true rfl rfl

/-- A plain script and the same one in a 7z archive, with carriage returns at the ends of lines. -/
theorem replay_packed_script :
    let octets := "1 +\r\n2 =\r".toUTF8.toList
    let script : Member := ⟨"keys.txt", some octets⟩
    let members : List Member := [script, ⟨"old.txt", none⟩]
    let t : FileTree := ⟨[], [(["keys.txt"], .file (.plain octets)),
      (["keys.7z"], .file (.archive .sevenZip members))]⟩
    let output : Path := ⟨"", ["display.txt"]⟩
    members.filter (isScript .sevenZip) = [script] ∧ IsReached members script .sevenZip ∧
      replay .standard t ⟨"", ["keys.7z"]⟩ output =
        replay .standard t ⟨"", ["keys.txt"]⟩ output := by
  intro octets script members t output
  have hplain : t.read ⟨"", ["keys.txt"]⟩ = .ok (.plain octets) :=
    FileTree.read_name (by simp) (by decide) (by decide) rfl
  have harchive : t.read ⟨"", ["keys.7z"]⟩ = .ok (.archive .sevenZip members) :=
    FileTree.read_name (by simp) (by decide) (by decide) rfl
  have hstored : storedName .sevenZip script = "keys.txt" := by decide +kernel
  have hname : IsOrdinary (storedName .sevenZip script) := by
    rw [hstored]
    exact .of_name (by decide +kernel) (by decide) (by decide) (by decide) (by simp) (by decide)
  have honly : members.filter (isScript .sevenZip) = [script] := by decide +kernel
  have hreached : IsReached members script .sevenZip :=
    isReached_of_isOrdinary (by decide +kernel) hname (by decide +kernel) rfl
  exact ⟨honly, hreached, (replay_eq_replay_iff hplain (by decide +kernel) harchive
    (by decide +kernel) nofun honly rfl).mpr hreached⟩

/-- A directory in front of the script ends the replay of a 7z archive. -/
theorem replay_directory_first :
    let octets := "6 / 3 =\n".toUTF8.toList
    let members : List Member := [⟨"scripts.txt", none⟩, ⟨"scripts.txt/keys.txt", some octets⟩]
    let t : FileTree := ⟨[], [(["keys.txt"], .file (.plain octets)),
      (["v1.2.7z"], .file (.archive .sevenZip members))]⟩
    let output : Path := ⟨"", ["display.txt"]⟩
    members.filter (isScript .sevenZip) = [⟨"scripts.txt/keys.txt", some octets⟩] ∧
      (replay .standard t ⟨"", ["keys.txt"]⟩ output).error = none ∧
      (replay .standard t ⟨"", ["v1.2.7z"]⟩ output).error =
        some (.member (.unpacked .isDirectory)) := by
  intro octets members t output
  have hplain : t.read ⟨"", ["keys.txt"]⟩ = .ok (.plain octets) :=
    FileTree.read_name (by simp) (by decide) (by decide) rfl
  have harchive : t.read ⟨"", ["v1.2.7z"]⟩ = .ok (.archive .sevenZip members) :=
    FileTree.read_name (by simp) (by decide) (by decide) rfl
  have hdecode : (decode octets).map Text.unifyLineEnds = .ok "6 / 3 =\n".toList := by
    decide +kernel
  have hwrite : ∀ written, t.write output written =
      .ok (t.put ["display.txt"] (.file (.plain written))) := by
    intro written
    rw [FileTree.write, FileTree.locate_name t (by simp) (by decide) (by decide)]
    rfl
  have htranscribe : (transcribe .standard "6 / 3 =\n".toList).2 = .ok ["6 / 3 = => 2"] := by
    decide +kernel
  have hstored : storedName .sevenZip ⟨"scripts.txt", none⟩ = "scripts.txt" := by decide +kernel
  have hname : IsOrdinary (storedName .sevenZip ⟨"scripts.txt", none⟩) := by
    rw [hstored]
    exact .of_name (by decide +kernel) (by decide) (by decide) (by decide) (by simp) (by decide)
  refine ⟨by decide +kernel, ?_, ?_⟩
  · rw [replay_eq, load_plain (by decide +kernel) hplain, hdecode, replayLoaded]
    generalize transcribe .standard "6 / 3 =\n".toList = replayed at htranscribe
    obtain ⟨log, result⟩ := replayed
    cases htranscribe
    rw [writeTranscript, hwrite]
  · rw [replay_eq, load_archive (by decide +kernel) harchive,
      ofMembers_of_directory (by decide +kernel) rfl hname (by decide +kernel)]
    rfl

end Script

end Keypad
