import Keypad.CommandLine
import Keypad.Proofs.Files.Tree
import Keypad.Proofs.Path.Suffixes
import Keypad.Proofs.Transcript.Layout

/-! # All or nothing

A run reads its arguments, finds the script, loads it and replays all its keys before it writes
anything.  So a run has two ends (`run_cases`): one of these steps fails, and the files are as
before; or all of them are possible (`Ready`), and the transcript is written (`run_of_ready`).

The transcript is named after the script, with a longer name, so it is beside the script and never
in its place (`Transcribed`).  Together: a run leaves the files as they are, or it writes the whole
transcript and nothing else (`run_all_or_nothing`). -/

namespace Keypad

open Transcript (scriptLines firstUnknown?_eq_none_iff)

namespace Script

variable {t : FileTree} {input : Path} {text : List Char}

/-- The octets of a written transcript: each entry is followed by a line feed. -/
def transcriptOctets (settings : Settings) (text : List Char) : List UInt8 :=
  let entries := Transcript.entries (.start settings) (scriptLines text)
  (String.join (entries.map (· ++ "\n"))).toUTF8.toList

theorem octets_text_entries (settings : Settings) (text : List Char) :
    (Transcript.text (Transcript.entries (.start settings) (scriptLines text))).toUTF8.toList =
      transcriptOctets settings text := rfl

/-- **The replay of a loaded script** ends at the first text that is no label, or at the writing of
the transcript, or it has written the transcript. -/
theorem replay_of_load (settings : Settings) (output : Path) (hload : load t input = .ok text) :
    let r := replay settings t input output
    match Transcript.firstUnknown? 1 (scriptLines text) with
    | some (n, label) => r.error = some (.key ⟨n, .unknown label⟩) ∧ r.tree = t
    | none =>
      match t.write output (transcriptOctets settings text) with
      | .error e => r.error = some (.file e) ∧ r.tree = t
      | .ok after => r.error = none ∧ r.tree = after := by
  have hresult := Transcript.transcribe_eq settings text
  unfold replay
  rw [hload]
  dsimp only
  generalize transcribe settings text = transcribed at hresult ⊢
  obtain ⟨log, result⟩ := transcribed
  dsimp only at hresult
  cases hunknown : Transcript.firstUnknown? 1 (scriptLines text) with
  | some numbered =>
    rw [hresult, hunknown]
    exact ⟨rfl, rfl⟩
  | none =>
    rw [hresult, hunknown]
    dsimp only
    rw [octets_text_entries]
    cases t.write output (transcriptOctets settings text) with
    | error e => exact ⟨rfl, rfl⟩
    | ok after => exact ⟨rfl, rfl⟩

/-- **The two ends of a replay.** -/
theorem replay_cases (settings : Settings) (t : FileTree) (input output : Path) :
    let r := replay settings t input output
    r.error ≠ none ∧ r.tree = t ∨
      r.error = none ∧ ∃ text, load t input = .ok text ∧
        (∀ line ∈ scriptLines text, ∀ label ∈ Token.split line, label ∈ Key.labels) ∧
        t.write output (transcriptOctets settings text) = .ok r.tree := by
  intro r
  cases hload : load t input with
  | error e =>
    have hr : r = ⟨[], t, some e⟩ := by
      show replay settings t input output = _
      rw [replay, hload]
    exact .inl ⟨by rw [hr]; nofun, by rw [hr]⟩
  | ok text =>
    have hreplay := replay_of_load settings output hload
    cases hunknown : Transcript.firstUnknown? 1 (scriptLines text) with
    | some numbered =>
      rw [hunknown] at hreplay
      exact .inl ⟨by rw [hreplay.1]; nofun, hreplay.2⟩
    | none =>
      rw [hunknown] at hreplay
      dsimp only at hreplay
      cases hwrite : t.write output (transcriptOctets settings text) with
      | error e =>
        rw [hwrite] at hreplay
        exact .inl ⟨by rw [hreplay.1]; nofun, hreplay.2⟩
      | ok after =>
        rw [hwrite] at hreplay
        refine .inr ⟨hreplay.1, text, rfl, firstUnknown?_eq_none_iff.mp hunknown, ?_⟩
        rw [hwrite, hreplay.2]

end Script

namespace CommandLine

open Script (transcriptOctets)

variable {t : FileTree} {arguments : List String} {input output : Path} {text : List Char}

/-- The arguments are the path of a file, which is a script of labels, and its transcript can be
written. -/
structure Ready (t : FileTree) (arguments : List String) (input output : Path)
    (text : List Char) : Prop where
  requested : ∃ path, Request.ofArguments arguments = .script path ∧ input = .ofText path
  readable : ∃ content, t.read input = .ok content
  named : input.transcript = .ok output
  loads : Script.load t input = .ok text
  labels : ∀ line ∈ scriptLines text, ∀ label ∈ Token.split line, label ∈ Key.labels
  writable : ∃ after, t.write output (transcriptOctets .standard text) = .ok after

/-- The files after a transcript is written: it is in the folder of the script under another name,
and everything else is as before, the working directory included. -/
structure Transcribed (before after : FileTree) (input output : Path) (octets : List UInt8)
    (folder : List String) : Prop where
  script_place : before.locate input = .ok (folder ++ [input.name])
  script : ∃ content, before.node? (folder ++ [input.name]) = some (.file content)
  transcript_place : before.locate output = .ok (folder ++ [output.name])
  name_ne : output.name ≠ input.name
  transcript : after.node? (folder ++ [output.name]) = some (.file (.plain octets))
  others : ∀ place, place ≠ folder ++ [output.name] → after.node? place = before.node? place
  home : after.home = before.home

/-- What is written to the path of a transcript is beside the script. -/
theorem exists_transcribed {before after : FileTree} {content : Content} {octets : List UInt8}
    (hread : before.read input = .ok content) (houtput : input.transcript = .ok output)
    (hwrite : before.write output octets = .ok after) :
    ∃ folder, Transcribed before after input output octets folder := by
  obtain ⟨place, hplace, hfile⟩ := FileTree.read_eq_ok_iff.mp hread
  obtain ⟨target, htarget, hnode, rfl⟩ := FileTree.write_eq_ok_iff.mp hwrite
  obtain ⟨hinit, hroot, hinit'⟩ := Path.transcript_eq_ok houtput
  have hname := Path.name_eq_of_names hinit'
  -- both paths begin at one directory and go through the same names up to the last
  obtain ⟨folder, hfolder, rfl⟩ := FileTree.exists_folder hplace hinit (by simp [hfile])
  obtain ⟨folder', hfolder', rfl⟩ := FileTree.exists_folder htarget hinit' hnode
  rw [before.start_congr hroot] at hfolder'
  obtain rfl : folder = folder' := Except.ok.inj (hfolder.symm.trans hfolder')
  rw [← hname] at htarget hnode ⊢
  have hhome := FileTree.not_prefix_home hnode
  exact ⟨folder, {
    script_place := hplace
    script := ⟨content, hfile⟩
    transcript_place := htarget
    name_ne := hname ▸ Path.transcriptName_ne input.name
    transcript := by rw [FileTree.node?_put _ hhome, if_pos rfl]
    others := fun place hplace => by rw [FileTree.node?_put _ hhome, if_neg hplace]
    home := FileTree.home_put .. }⟩

/-- A run that is ready writes the transcript. -/
theorem run_of_ready (h : Ready t arguments input output text) :
    (run t arguments).stop = none ∧
      t.write output (transcriptOctets .standard text) = .ok (run t arguments).tree := by
  obtain ⟨⟨path, hrequest, rfl⟩, ⟨content, hread⟩, houtput, hload, hlabels, after, hwrite⟩ := h
  have hreplay := Script.replay_of_load .standard output hload
  rw [firstUnknown?_eq_none_iff.mpr hlabels] at hreplay
  dsimp only at hreplay
  rw [hwrite] at hreplay
  obtain ⟨herror, htree⟩ := hreplay
  unfold run
  rw [hrequest]
  dsimp only
  unfold replay refusal?
  rw [hread, houtput]
  dsimp only
  rw [herror, htree, hwrite]
  exact ⟨rfl, rfl⟩

/-- **The two ends of a run.** -/
theorem run_cases (t : FileTree) (arguments : List String) :
    let r := run t arguments
    r.stop ≠ none ∧ r.tree = t ∨
      r.stop = none ∧ ∃ input output text, Ready t arguments input output text := by
  unfold run
  cases hrequest : Request.ofArguments arguments with
  | help => exact .inl ⟨nofun, rfl⟩
  | usageError => exact .inl ⟨nofun, rfl⟩
  | script path =>
    dsimp only
    unfold replay refusal?
    cases hread : t.read (.ofText path) with
    | error e => cases e <;> exact .inl ⟨nofun, rfl⟩
    | ok content =>
      cases houtput : (Path.ofText path).transcript with
      | error e => exact .inl ⟨nofun, rfl⟩
      | ok output =>
        dsimp only
        rcases Script.replay_cases .standard t (.ofText path) output with
          ⟨herror, htree⟩ | ⟨herror, text, hload, hlabels, hwrite⟩
        · exact .inl ⟨mt Option.map_eq_none_iff.mp herror, htree⟩
        · refine .inr ⟨Option.map_eq_none_iff.mpr herror, .ofText path, output, text, ?_⟩
          exact ⟨⟨path, hrequest, rfl⟩, ⟨content, hread⟩, houtput, hload, hlabels, _, hwrite⟩

/-- **All or nothing.**  A run that stops leaves all files as they are, a transcript written earlier
included.  It does not stop exactly if the arguments are the path of a file, the file is a script of
labels and the transcript can be written.  Then the transcript, each entry followed by a line feed,
is all that the run changes: it is in the folder of the script, under a name that is not that of the
script. -/
theorem run_all_or_nothing (t : FileTree) (arguments : List String) :
    let r := run t arguments
    (r.stop ≠ none → r.tree = t) ∧
    (r.stop = none ↔ ∃ input output text, Ready t arguments input output text) ∧
    (∀ input output text, Ready t arguments input output text →
      ∃ folder, Transcribed t r.tree input output (transcriptOctets .standard text) folder) := by
  intro r
  have hcases := run_cases t arguments
  refine ⟨fun hstop => ?_, ⟨fun hnone => ?_, ?_⟩, ?_⟩
  · rcases hcases with ⟨-, htree⟩ | ⟨hnone, -⟩
    · exact htree
    · exact absurd hnone hstop
  · rcases hcases with ⟨hstop, -⟩ | ⟨-, hready⟩
    · exact absurd hnone hstop
    · exact hready
  · rintro ⟨input, output, text, hready⟩
    exact (run_of_ready hready).1
  · intro input output text hready
    obtain ⟨content, hread⟩ := hready.readable
    exact exists_transcribed hread hready.named (run_of_ready hready).2

-- a script of one line, on a path from the root
example :
    let script := Node.file (.plain "2 * 3 =\n".toUTF8.toList)
    let t : FileTree := ⟨["work"], [(["tmp"], .directory), (["tmp", "a.txt"], script)]⟩
    Ready t ["/tmp/a.txt"] ⟨"/", ["tmp", "a.txt"]⟩ ⟨"/", ["tmp", "a_txt_display.txt"]⟩
      "2 * 3 =\n".toList := by
  intro script t
  have hthrough : ∀ k < 2, t.node? (["tmp", "a.txt"].take k) = some .directory := by decide +kernel
  have hthrough' : ∀ k < 2, t.node? (["tmp", "a_txt_display.txt"].take k) = some .directory := by
    decide +kernel
  have hread : t.read ⟨"/", ["tmp", "a.txt"]⟩ = .ok (.plain "2 * 3 =\n".toUTF8.toList) :=
    FileTree.read_eq_ok_iff.mpr ⟨_, FileTree.locate_eq (by simp) (by decide) (by decide)
      (by decide) hthrough, by decide +kernel⟩
  exact {
    requested := ⟨"/tmp/a.txt", by decide +kernel, by decide +kernel⟩
    readable := ⟨_, hread⟩
    named := by decide +kernel
    loads := by
      rw [Script.load, if_pos (by decide +kernel), hread]
      decide +kernel
    labels := by decide +kernel
    writable := ⟨_, FileTree.write_eq_ok_iff.mpr ⟨_, FileTree.locate_eq (by simp) (by decide)
      (by decide) (by decide) hthrough', by decide +kernel, rfl⟩⟩ }

end CommandLine

end Keypad
