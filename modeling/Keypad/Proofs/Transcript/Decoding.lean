import Keypad.Proofs.CommandLine.AllOrNothing
import Keypad.Proofs.Session.Record
import Keypad.Proofs.Text.Utf8

/-! # Decoding a transcript

A transcript is read back by splitting it at line feeds (`endedLines?`) and cutting each line at the
first ` => ` (`cut?`); together with the decoding of the octets this is `decode?`.

* The lines of a script hold no line feed, and if all their texts are labels, no `>`: a character
  that is not blank belongs to a text (`exists_mem_words`), and no label holds one.  So the first
  mark of an entry is the one between the line and the display (`cut?_append`).
* No display of a reachable session holds a line feed (`lineFeed_not_mem_display`).
* `decode?_text`: pairs of lines and displays with these properties are decoded from their entries.
* `decode?_transcript`: so the transcript of every replayed script gives back its lines, trimmed,
  and the displays after them. -/

namespace Keypad

namespace Text

/-! ### Lines that are ended and texts that are cut -/

/-- The lines of a text in which every line, also the last one, ends in a line feed. -/
def endedLines? (cs : List Char) : Option (List (List Char)) :=
  let lines := pieces (· == '\n') cs
  if lines.getLast? = some [] then some lines.dropLast else none

/-- A text cut at the first occurrence of a mark: what stands before it and what after it. -/
def cut? (mark : List Char) : List Char → Option (List Char × List Char)
  | [] => if mark.isEmpty then some ([], []) else none
  | c :: cs =>
    if mark.isPrefixOf (c :: cs) then some ([], (c :: cs).drop mark.length)
    else (cut? mark cs).map fun (before, after) => (c :: before, after)

theorem pieces_flatMap_lineFeed {ls : List (List Char)} (h : ∀ l ∈ ls, '\n' ∉ l) :
    pieces (· == '\n') (ls.flatMap (· ++ ['\n'])) = ls ++ [[]] := by
  induction ls with
  | nil => rfl
  | cons l ls ih =>
    obtain ⟨hl, hls⟩ := List.forall_mem_cons.mp h
    have hpiece : pieces (· == '\n') l = [l] :=
      pieces_eq_singleton fun c hc => beq_eq_false_iff_ne.mpr fun heq => hl (heq ▸ hc)
    rw [List.flatMap_cons, List.append_assoc, List.singleton_append,
      pieces_append_cons (by rfl), hpiece, ih hls]
    rfl

/-- **Lines, each ended** by a line feed, are read back. -/
theorem endedLines?_flatMap {ls : List (List Char)} (h : ∀ l ∈ ls, '\n' ∉ l) :
    endedLines? (ls.flatMap (· ++ ['\n'])) = some ls := by
  unfold endedLines?
  rw [pieces_flatMap_lineFeed h]
  simp

/-- **A mark** is found where it stands, if one of its characters occurs neither before it nor
earlier in the mark. -/
theorem cut?_append {head tail xs : List Char} {c : Char} (hhead : c ∉ head) (hxs : c ∉ xs)
    (ys : List Char) :
    cut? (head ++ c :: tail) (xs ++ (head ++ c :: tail ++ ys)) = some (xs, ys) := by
  induction xs with
  | nil =>
    obtain ⟨m, mark, hmark⟩ := List.exists_cons_of_ne_nil (l := head ++ c :: tail) (by simp)
    rw [hmark]
    simp [cut?]
  | cons x xs ih =>
    have hxs' : c ∉ xs := fun hc => hxs (List.mem_cons_of_mem _ hc)
    have hno : (head ++ c :: tail).isPrefixOf (x :: (xs ++ (head ++ c :: tail ++ ys))) = false := by
      rw [← Bool.not_eq_true, List.isPrefixOf_iff_prefix]
      intro hprefix
      -- otherwise the character would occur before it does for the first time
      have hmark : head ++ [c] <+: head ++ c :: tail := ⟨tail, by simp⟩
      have hbegin := hmark.trans hprefix
      have hbefore : x :: xs ++ head <+: x :: (xs ++ (head ++ c :: tail ++ ys)) :=
        ⟨c :: tail ++ ys, by simp⟩
      have hearly := List.prefix_of_prefix_length_le hbegin hbefore (by simp)
      have hmem : c ∈ x :: xs ++ head := hearly.subset (by simp)
      exact (List.mem_append.mp hmem).elim hxs hhead
    rw [List.cons_append, cut?, hno, ih hxs']
    rfl

end Text

namespace Transcript

open Session

/-! ### Entries -/

/-- An entry cut at its first ` => `: the line and the display. -/
def cutEntry? (entry : List Char) : Option (String × String) :=
  (Text.cut? " => ".toList entry).map fun (line, shown) => (String.ofList line, String.ofList shown)

/-- **A decoder of transcripts**: the octets are decoded, the text is split into lines, each ended
by a line feed, and each of them is cut. -/
def decode? (octets : List UInt8) : Option (List (String × String)) := do
  let text ← (Text.decodeUtf8 octets).toOption
  let lines ← Text.endedLines? text
  lines.mapM cutEntry?

/-- **What is shown after each line**: every line that is not blank, trimmed, with the display after
all texts of the lines up to and including that one. -/
def shownLines (s : Session) (lines : List String) : List (String × String) :=
  (lines.zipIdx.filter fun (line, _) => !isBlankLine line).map fun (line, i) =>
    (trimmed line, (s.pressLabels ((lines.take (i + 1)).flatMap Token.split)).display)

/-- The lines that are not blank, trimmed. -/
def trimmedLines (lines : List String) : List String :=
  (lines.filter fun line => !isBlankLine line).map trimmed

theorem entries_eq (s : Session) (lines : List String) :
    entries s lines = (shownLines s lines).map fun (line, shown) => line ++ " => " ++ shown := by
  simp [entries, shownLines, Function.comp_def]

theorem map_fst_shownLines (s : Session) (lines : List String) :
    (shownLines s lines).map Prod.fst = trimmedLines lines := by
  have hlines : lines.zipIdx.map Prod.fst = lines := List.zipIdx_map_fst ..
  conv_rhs => rw [trimmedLines, ← hlines, List.filter_map]
  simp [shownLines, Function.comp_def]

/-- What keeps the parts of an entry apart: no line feed, and no `>` in the line. -/
structure IsSeparable (line shown : String) : Prop where
  mark_not_mem : '>' ∉ line.toList
  lineFeed_not_mem_line : '\n' ∉ line.toList
  lineFeed_not_mem_shown : '\n' ∉ shown.toList

theorem IsSeparable.cutEntry? {line shown : String} (h : IsSeparable line shown) :
    cutEntry? (line ++ " => " ++ shown).toList = some (line, shown) := by
  have hentry : (line ++ " => " ++ shown).toList =
      line.toList ++ (" => ".toList ++ shown.toList) := by simp
  have hcut : Text.cut? " => ".toList (line.toList ++ (" => ".toList ++ shown.toList)) =
      some (line.toList, shown.toList) :=
    have hhead : '>' ∉ [' ', '='] := by decide
    Text.cut?_append hhead h.mark_not_mem _
  rw [Transcript.cutEntry?, hentry, hcut]
  simp

theorem IsSeparable.lineFeed_not_mem {line shown : String} (h : IsSeparable line shown) :
    '\n' ∉ (line ++ " => " ++ shown).toList := by
  simp [h.lineFeed_not_mem_line, h.lineFeed_not_mem_shown]

theorem toList_text (es : List String) :
    (text es).toList = (es.map String.toList).flatMap (· ++ ['\n']) := by
  simp [text, List.flatMap_map]

/-- **Entries whose parts are kept apart** are decoded from the octets of their transcript. -/
theorem decode?_text {shown : List (String × String)} (h : ∀ p ∈ shown, IsSeparable p.1 p.2) :
    decode? (text (shown.map fun (line, shown) => line ++ " => " ++ shown)).toUTF8.toList =
      some shown := by
  have hended : Text.endedLines?
      (text (shown.map fun (line, shown) => line ++ " => " ++ shown)).toList =
        some (shown.map fun (line, shown) => (line ++ " => " ++ shown).toList) := by
    rw [toList_text, List.map_map]
    refine Text.endedLines?_flatMap fun l hl => ?_
    obtain ⟨p, hp, rfl⟩ := List.mem_map.mp hl
    exact (h p hp).lineFeed_not_mem
  have hcut : (shown.map fun (line, shown) => (line ++ " => " ++ shown).toList).mapM cutEntry? =
      some shown := by
    clear hended
    induction shown with
    | nil => rfl
    | cons p shown ih =>
      obtain ⟨hp, hshown⟩ := List.forall_mem_cons.mp h
      rw [List.map_cons, List.mapM_cons, hp.cutEntry?, ih hshown]
      rfl
  unfold decode?
  rw [Text.decodeUtf8_toUTF8]
  simp only [Except.toOption, Option.bind_eq_bind, Option.bind_some, hended, hcut]

/-! ### Lines and displays of a replay -/

theorem mark_not_mem_label {label : String} (h : label ∈ Key.labels) : '>' ∉ label.toList := by
  have hall : ∀ label ∈ Key.labels, '>' ∉ label.toList := by decide
  exact hall label h

/-- A line of labels holds no `>`. -/
theorem mark_not_mem_trimmed {line : String} (h : ∀ text ∈ Token.split line, text ∈ Key.labels) :
    '>' ∉ (trimmed line).toList := by
  intro hmem
  rw [trimmed, String.toList_ofList] at hmem
  obtain ⟨w, hw, hmark⟩ := Text.exists_mem_words (Text.mem_of_mem_trim hmem) (by decide)
  have hlabel := h (String.ofList w) (List.mem_map_of_mem hw)
  exact mark_not_mem_label hlabel (by rwa [String.toList_ofList])

theorem lineFeed_not_mem_trimmed {text : List Char} {line : String}
    (h : line ∈ scriptLines text) : '\n' ∉ (trimmed line).toList := by
  intro hmem
  obtain ⟨l, hl, rfl⟩ := List.mem_map.mp h
  rw [trimmed, String.toList_ofList, String.toList_ofList] at hmem
  have hend := Text.isLineEnd_eq_false_of_mem_lines hl (Text.mem_of_mem_trim hmem)
  exact absurd hend (by decide)

/-- No display holds a line feed, if neither the display of an empty expression nor the error text
brings one in. -/
theorem lineFeed_not_mem_display {s : Session} (h : s.WellShaped)
    (herror : ∀ c ∈ s.settings.errorText.toList, Text.isBlank c = false)
    (hempty : '\n' ∉ s.settings.emptyDisplay.toList) : '\n' ∉ s.display.toList := by
  have hwords := h.isWord herror
  unfold Session.display Expression.display
  split
  · exact hempty
  · rw [String.toList_intercalate]
    intro hmem
    rcases Text.mem_intercalate hmem with hspace | ⟨w, hw, hfeed⟩
    · exact absurd hspace (by decide)
    · obtain ⟨token, htoken, rfl⟩ := List.mem_map.mp hw
      exact absurd ((hwords token htoken).not_blank _ hfeed) (by decide)

theorem isSeparable_of_mem_shownLines {text : List Char}
    (hlabels : ∀ line ∈ scriptLines text, ∀ label ∈ Token.split line, label ∈ Key.labels) :
    ∀ p ∈ shownLines (start .standard) (scriptLines text), IsSeparable p.1 p.2 := by
  intro p hp
  obtain ⟨⟨line, i⟩, hmem, rfl⟩ := List.mem_map.mp hp
  have hline : line ∈ scriptLines text := List.fst_mem_of_mem_zipIdx (List.mem_filter.mp hmem).1
  have hrun : ∀ labels : List String, ((start .standard).pressLabels labels).WellShaped ∧
      ((start .standard).pressLabels labels).settings = .standard := fun labels =>
    (wellShaped_start .standard).run (labels.map .press)
  obtain ⟨hshape, hsettings⟩ := hrun (((scriptLines text).take (i + 1)).flatMap Token.split)
  refine ⟨mark_not_mem_trimmed (hlabels line hline), lineFeed_not_mem_trimmed hline,
    lineFeed_not_mem_display hshape ?_ ?_⟩
  · rw [hsettings]
    exact Text.forall_not_blank_iff.mpr (by decide)
  · rw [hsettings]
    decide

/-! ### The decoded transcript -/

/-- The labels of a script that is replayed to its end. -/
theorem labels_of_transcribe_eq_ok {settings : Settings} {text : List Char} {es : List String}
    (h : (Script.transcribe settings text).2 = .ok es) :
    (∀ line ∈ scriptLines text, ∀ label ∈ Token.split line, label ∈ Key.labels) ∧
      es = entries (start settings) (scriptLines text) := by
  rw [transcribe_eq] at h
  cases hunknown : firstUnknown? 1 (scriptLines text) with
  | some numbered =>
    rw [hunknown] at h
    cases h
  | none =>
    rw [hunknown] at h
    exact ⟨firstUnknown?_eq_none_iff.mp hunknown, (Except.ok.inj h).symm⟩

theorem decode?_of_transcribe {text : List Char} {es : List String}
    (h : (Script.transcribe .standard text).2 = .ok es) :
    decode? (Transcript.text es).toUTF8.toList =
      some (shownLines (start .standard) (scriptLines text)) := by
  obtain ⟨hlabels, rfl⟩ := labels_of_transcribe_eq_ok h
  rw [entries_eq]
  exact decode?_text (isSeparable_of_mem_shownLines hlabels)

/-- **A transcript can be decoded.**  If the replay of a script succeeds with the standard settings,
its transcript gives back every line that is not blank, trimmed and in order, and the display after
it.  So every other script with the same transcript has the same trimmed lines.  The octets that are
decoded are those of the file that the replay writes, wherever the script was loaded from. -/
theorem decode?_transcript {text : List Char} {es : List String}
    (h : (Script.transcribe .standard text).2 = .ok es) :
    let octets := (Transcript.text es).toUTF8.toList
    let shown := shownLines (start .standard) (scriptLines text)
    decode? octets = some shown ∧ shown.map Prod.fst = trimmedLines (scriptLines text) ∧
      (∀ other entries, (Script.transcribe .standard other).2 = .ok entries →
        (Transcript.text entries).toUTF8.toList = octets →
        trimmedLines (scriptLines other) = trimmedLines (scriptLines text)) ∧
      ∀ t input output, Script.load t input = .ok text →
        let r := Script.replay .standard t input output
        r.error = none →
        ∃ place, t.locate output = .ok place ∧
          r.tree.node? place = some (.file (.plain octets)) := by
  intro octets shown
  refine ⟨decode?_of_transcribe h, map_fst_shownLines _ _, ?_, ?_⟩
  · intro other entries hother hsame
    have hshown := decode?_of_transcribe hother
    rw [hsame, decode?_of_transcribe h, Option.some.injEq] at hshown
    rw [← map_fst_shownLines (start .standard), ← map_fst_shownLines (start .standard),
      hshown]
  · intro t input output hload r hnone
    rcases Script.replay_cases .standard t input output with
      ⟨herror, -⟩ | ⟨-, loaded, hloaded, -, hwrite⟩
    · exact absurd hnone herror
    · obtain rfl : text = loaded := Except.ok.inj (hload.symm.trans hloaded)
      obtain ⟨place, hplace, hnode, htree⟩ := FileTree.write_eq_ok_iff.mp hwrite
      obtain ⟨-, rfl⟩ := labels_of_transcribe_eq_ok h
      refine ⟨place, hplace, ?_⟩
      rw [htree, FileTree.node?_put t (FileTree.not_prefix_home hnode), if_pos rfl]
      rfl

/-- Two lines with a blank line between them, a tab and an operator that changes nothing. -/
theorem decode?_transcript_tabs :
    let text := "+ 1\t2 =\n \n\u2003* 3 =  ".toList
    let octets := "+ 1\t2 = => 12\n* 3 = => 36\n".toUTF8.toList
    (Script.transcribe .standard text).2 = .ok ["+ 1\t2 = => 12", "* 3 = => 36"] ∧
      decode? octets = some [("+ 1\t2 =", "12"), ("* 3 =", "36")] ∧
      trimmedLines (scriptLines text) = ["+ 1\t2 =", "* 3 ="] := by
  intro text octets
  have hentries : (Script.transcribe .standard text).2.toOption =
      some ["+ 1\t2 = => 12", "* 3 = => 36"] := by decide +kernel
  cases h : (Script.transcribe .standard text).2 with
  | error e =>
    rw [h] at hentries
    cases hentries
  | ok es =>
    rw [h] at hentries
    obtain rfl := Option.some.inj hentries
    obtain ⟨hdecode, htrimmed, -⟩ := decode?_transcript h
    have hshown : shownLines (start .standard) (scriptLines text) =
        [("+ 1\t2 =", "12"), ("* 3 =", "36")] := by decide +kernel
    rw [hshown] at hdecode htrimmed
    exact ⟨rfl, hdecode, htrimmed.symm⟩

end Transcript

end Keypad
