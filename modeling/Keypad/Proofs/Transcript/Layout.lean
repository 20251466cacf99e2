import Keypad.Files.Script
import Keypad.Proofs.Transcript.Replay

/-! # The layout of a script

How the keys of a script are laid out in lines does not matter for what is calculated: splitting a
text into lines neither joins, splits nor drops a key (`keys_scriptLines`), the first text that is
no label is the same in every layout (`map_snd_firstUnknown?`), and the last entry shows the display
after all keys (`getLast?_entries`).  So the replays of two texts with the same words end alike
(`transcribe_of_same_words`). -/

namespace Keypad.Transcript

open Session

/-- The texts pressed as keys, line after line. -/
def keys (lines : List String) : List String := lines.flatMap fun line => Token.split (trimmed line)

/-- The last line that is not blank, trimmed. -/
def lastLine? (lines : List String) : Option String :=
  (lines.filter fun line => !isBlankLine line).getLast?.map trimmed

theorem keys_eq (lines : List String) : keys lines = lines.flatMap Token.split :=
  List.flatMap_congr fun line _ => split_trimmed line

theorem split_ofList (cs : List Char) :
    Token.split (String.ofList cs) = (Text.words cs).map String.ofList := by
  rw [Token.split, String.toList_ofList]

/-- **The keys of a text** are its words. -/
theorem keys_scriptLines (text : List Char) :
    keys (scriptLines text) = Token.split (String.ofList text) := by
  rw [keys_eq, scriptLines, List.flatMap_map]
  simp only [split_ofList]
  rw [← List.map_flatMap, Text.flatMap_words_lines]

theorem map_snd_firstUnknown? (number : ℕ) (lines : List String) :
    (firstUnknown? number lines).map Prod.snd =
      (lines.flatMap Token.split).find? (· ∉ Key.labels) := by
  induction lines generalizing number with
  | nil => rfl
  | cons line rest ih =>
    rw [firstUnknown?_cons, List.flatMap_cons, List.find?_append, ← ih (number + 1)]
    cases (Token.split line).find? (· ∉ Key.labels) <;> rfl

/-- There is a last line exactly if there are keys. -/
theorem lastLine?_eq_none_iff {lines : List String} :
    lastLine? lines = none ↔ lines.flatMap Token.split = [] := by
  rw [lastLine?, Option.map_eq_none_iff, List.getLast?_eq_none_iff, List.filter_eq_nil_iff,
    List.flatMap_eq_nil_iff]
  simp [split_eq_nil_iff]

theorem lastLine?_cons (line : String) (rest : List String) : lastLine? (line :: rest) =
    (lastLine? rest).or (if isBlankLine line then none else some (trimmed line)) := by
  unfold lastLine?
  cases hblank : isBlankLine line with
  | true => simp [hblank]
  | false =>
    rw [List.filter_cons_of_pos (by simp [hblank]), List.getLast?_cons]
    cases (rest.filter fun l => !isBlankLine l).getLast? <;> rfl

/-- **The last entry** shows the display after all keys. -/
theorem getLast?_entries (s : Session) (lines : List String) : (entries s lines).getLast? =
    (lastLine? lines).map fun line =>
      line ++ " => " ++ (s.pressLabels (lines.flatMap Token.split)).display := by
  induction lines generalizing s with
  | nil => rfl
  | cons line rest ih =>
    rw [entries_cons, List.getLast?_append, ih, lastLine?_cons, List.flatMap_cons,
      pressLabels_append]
    cases hlast : lastLine? rest with
    | some last => rfl
    | none =>
      -- only blank lines follow, and they press nothing
      rw [lastLine?_eq_none_iff.mp hlast]
      cases isBlankLine line <;> rfl

theorem transcribe_eq (settings : Settings) (text : List Char) :
    (Script.transcribe settings text).2 =
      match firstUnknown? 1 (scriptLines text) with
      | none => .ok (entries (start settings) (scriptLines text))
      | some (n, label) => .error (.key ⟨n, .unknown label⟩) := by
  show (replayFrom 1 (start settings) (scriptLines text)).2.mapError ScriptError.key = _
  rw [replayFrom_eq]
  cases firstUnknown? 1 (scriptLines text) <;> rfl

/-- A text of labels is replayed, and its last entry shows the display after all of them. -/
theorem transcribe_of_labels (settings : Settings) {text : List Char}
    (h : (Token.split (String.ofList text)).find? (· ∉ Key.labels) = none) :
    ∃ es, (Script.transcribe settings text).2 = .ok es ∧
      (es = [] ↔ Token.split (String.ofList text) = []) ∧
      es.getLast? = (lastLine? (scriptLines text)).map fun line =>
        line ++ " => " ++
          ((start settings).pressLabels (Token.split (String.ofList text))).display := by
  have hkeys := keys_scriptLines text
  have hunknown := map_snd_firstUnknown? 1 (scriptLines text)
  have hlast := getLast?_entries (start settings) (scriptLines text)
  rw [keys_eq] at hkeys
  rw [hkeys, h, Option.map_eq_none_iff] at hunknown
  rw [hkeys] at hlast
  refine ⟨_, by rw [transcribe_eq, hunknown], ?_, hlast⟩
  rw [← List.getLast?_eq_none_iff, hlast, Option.map_eq_none_iff, lastLine?_eq_none_iff, hkeys]

/-- The replay of another text ends with the first of its words that is no label. -/
theorem transcribe_of_unknown (settings : Settings) {text : List Char} {label : String}
    (h : (Token.split (String.ofList text)).find? (· ∉ Key.labels) = some label) :
    ∃ n, (Script.transcribe settings text).2 = .error (.key ⟨n, .unknown label⟩) := by
  have hkeys := keys_scriptLines text
  have hunknown := map_snd_firstUnknown? 1 (scriptLines text)
  rw [keys_eq] at hkeys
  rw [hkeys, h] at hunknown
  obtain ⟨⟨n, _⟩, hfirst, rfl⟩ := Option.map_eq_some_iff.mp hunknown
  exact ⟨n, by rw [transcribe_eq, hfirst]⟩

/-- **Only the sequence of the keys matters.**  The keys of a text, line after line, are its words.
If two texts have the same words, then either both replays succeed, and their last entries show the
same display, that after all keys; or both end with the same text that is no label. -/
theorem transcribe_of_same_words (settings : Settings) {s t : List Char}
    (h : Token.split (String.ofList s) = Token.split (String.ofList t)) :
    let shown := ((start settings).pressLabels (Token.split (String.ofList s))).display
    keys (scriptLines s) = Token.split (String.ofList s) ∧
      keys (scriptLines t) = Token.split (String.ofList s) ∧
      ((∃ es et, (Script.transcribe settings s).2 = .ok es ∧
          (Script.transcribe settings t).2 = .ok et ∧ (es = [] ↔ et = []) ∧
          es.getLast? = (lastLine? (scriptLines s)).map (· ++ " => " ++ shown) ∧
          et.getLast? = (lastLine? (scriptLines t)).map (· ++ " => " ++ shown)) ∨
        ∃ m n text, (Script.transcribe settings s).2 = .error (.key ⟨m, .unknown text⟩) ∧
          (Script.transcribe settings t).2 = .error (.key ⟨n, .unknown text⟩)) := by
  intro shown
  refine ⟨keys_scriptLines s, (keys_scriptLines t).trans h.symm, ?_⟩
  cases hfind : (Token.split (String.ofList s)).find? (· ∉ Key.labels) with
  | none =>
    obtain ⟨es, hes, hnil, hlast⟩ := transcribe_of_labels settings hfind
    obtain ⟨et, het, hnil', hlast'⟩ := transcribe_of_labels settings (h ▸ hfind)
    rw [← h] at hnil' hlast'
    exact Or.inl ⟨es, et, hes, het, hnil.trans hnil'.symm, hlast, hlast'⟩
  | some text =>
    obtain ⟨m, hm⟩ := transcribe_of_unknown settings hfind
    obtain ⟨n, hn⟩ := transcribe_of_unknown settings (h ▸ hfind)
    exact Or.inr ⟨m, n, text, hm, hn⟩

/-- Three lines with other line ends, tabs and a blank line between press what one line presses. -/
theorem transcribe_of_same_words_tabs :
    let s := "1\t2 +\r\n\n 3\u2028 = ".toList
    let t := "1 2 + 3 =".toList
    Token.split (String.ofList s) = Token.split (String.ofList t) ∧
      keys (scriptLines s) = ["1", "2", "+", "3", "="] ∧
      ∃ es et, (Script.transcribe .standard s).2 = .ok es ∧
        (Script.transcribe .standard t).2 = .ok et ∧
        es.getLast? = some "= => 15" ∧ et.getLast? = some "1 2 + 3 = => 15" := by
  intro s t
  have hsame : Token.split (String.ofList s) = Token.split (String.ofList t) := by decide +kernel
  obtain ⟨hkeys, -, hends⟩ := transcribe_of_same_words .standard hsame
  refine ⟨hsame, hkeys.trans (by decide +kernel), ?_⟩
  rcases hends with ⟨es, et, hes, het, -, hlast, hlast'⟩ | ⟨m, n, text, herror, -⟩
  · exact ⟨es, et, hes, het, hlast.trans (by decide +kernel), hlast'.trans (by decide +kernel)⟩
  · have hok : (Script.transcribe .standard s).2.isOk = true := by decide +kernel
    rw [herror] at hok
    cases hok

end Keypad.Transcript
