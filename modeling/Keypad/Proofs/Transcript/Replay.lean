import Keypad.Proofs.Session.Shape
import Keypad.Proofs.Text.Words
import Keypad.Transcript

/-! # Replays

A replay reads the texts of a script from left to right and line by line.  It goes on as long as
they are labels, and how it ends is told by the texts alone:

* `numberedFrom`: the texts in reading order, each with the number of its line;
* `entries`: for every line that is not blank, the trimmed line and the display of a session after
  all texts up to the end of the line;
* `replayFrom_cons_of_none`, `replayFrom_cons_of_some`: what a line logs and gives, with labels only
  and with a text that is no label;
* `replayFrom_eq`: a replay gives these entries, unless one of the texts is no label; then it ends
  with the first such text and the number of its line. -/

namespace Keypad

namespace Key

/-- The labels of the 17 keys. -/
def labels : List String := "0123456789.+-*/=C".toList.map fun c => String.ofList [c]

/-- The ASCII digits are the ten characters from `0` to `9`. -/
theorem mem_digits_iff {c : Char} : c ∈ "0123456789".toList ↔ c.isDigit = true := by
  constructor
  · have hall : "0123456789".toList.all Char.isDigit = true := by decide
    exact List.all_eq_true.mp hall c
  · intro h
    have hmem : ∀ n < 58, 48 ≤ n → Char.ofNat n ∈ "0123456789".toList := by decide
    rw [Char.isDigit, Bool.and_eq_true, decide_eq_true_eq, decide_eq_true_eq] at h
    have hlow : 48 ≤ c.toNat := h.1
    have hhigh : c.toNat ≤ 57 := h.2
    have := hmem c.toNat (by omega) hlow
    rwa [Char.ofNat_toNat] at this

theorem label_mem_labels (key : Key) : key.label ∈ labels := by
  cases key with
  | equals => decide
  | clear => decide
  | operator op => cases op <;> decide
  | number k =>
    refine List.mem_map.mpr ⟨k.char, ?_, rfl⟩
    rcases k.char_cases with hdigit | hpoint
    · exact List.mem_append_left ".+-*/=C".toList (mem_digits_iff.mpr hdigit)
    · rw [hpoint]
      decide

/-- A text is a label exactly if some key is read from it. -/
theorem mem_labels_iff {s : String} : s ∈ labels ↔ ∃ key, ofLabel? s = some key := by
  constructor
  · have hall : ∀ label ∈ labels, (ofLabel? label).isSome = true := by decide
    exact fun h => Option.isSome_iff_exists.mp (hall s h)
  · rintro ⟨key, hkey⟩
    rw [ofLabel?_eq_some_iff.mp hkey]
    exact label_mem_labels key

theorem ofLabel?_eq_none {s : String} (h : s ∉ labels) : ofLabel? s = none := by
  cases hkey : ofLabel? s with
  | none => rfl
  | some key => exact absurd (mem_labels_iff.mpr ⟨key, hkey⟩) h

end Key

namespace Session

/-- The session after presses of labels. -/
def pressLabels (s : Session) (labels : List String) : Session := s.run (labels.map .press)

theorem pressLabels_append (s : Session) (xs ys : List String) :
    s.pressLabels (xs ++ ys) = (s.pressLabels xs).pressLabels ys := by
  simp [pressLabels, run]

end Session

namespace Transcript

open Session

/-! ### The texts of a script -/

/-- Whether a line holds only blank characters. -/
def isBlankLine (line : String) : Bool := line.toList.all Text.isBlank

/-- The texts of lines in reading order, each with the number of its line; the first line has the
given number. -/
def numberedFrom (number : ℕ) (lines : List String) : List (ℕ × String) :=
  (lines.zipIdx number).flatMap fun (line, n) => (Token.split line).map fun text => (n, text)

/-- The first text that is no label, with the number of its line. -/
def firstUnknown? (number : ℕ) (lines : List String) : Option (ℕ × String) :=
  (numberedFrom number lines).find? fun numbered => numbered.2 ∉ Key.labels

/-- **The entries** of lines: one for every line that is not blank, with the display after all texts
of the lines up to and including that one. -/
def entries (s : Session) (lines : List String) : List String :=
  (lines.zipIdx.filter fun (line, _) => !isBlankLine line).map fun (line, i) =>
    trimmed line ++ " => " ++
      (s.pressLabels ((lines.take (i + 1)).flatMap Token.split)).display

theorem split_trimmed (line : String) : Token.split (trimmed line) = Token.split line := by
  rw [Token.split, trimmed, String.toList_ofList, Text.words_trim]
  rfl

theorem isEmpty_trimmed (line : String) : (trimmed line).isEmpty = isBlankLine line := by
  rw [Bool.eq_iff_iff, String.isEmpty_iff, ← String.toList_eq_nil_iff, trimmed,
    String.toList_ofList]
  exact Text.trim_eq_nil_iff

theorem split_eq_nil_iff {line : String} : Token.split line = [] ↔ isBlankLine line = true := by
  rw [Token.split, List.map_eq_nil_iff]
  exact Text.words_eq_nil_iff

theorem numberedFrom_cons (number : ℕ) (line : String) (rest : List String) :
    numberedFrom number (line :: rest) =
      (Token.split line).map (fun text => (number, text)) ++ numberedFrom (number + 1) rest := by
  rw [numberedFrom, List.zipIdx_cons, List.flatMap_cons]
  rfl

theorem firstUnknown?_cons (number : ℕ) (line : String) (rest : List String) :
    firstUnknown? number (line :: rest) =
      (((Token.split line).find? (· ∉ Key.labels)).map fun text => (number, text)).or
        (firstUnknown? (number + 1) rest) := by
  rw [firstUnknown?, numberedFrom_cons, List.find?_append, List.find?_map]
  rfl

theorem find?_unknown_eq_none_iff {texts : List String} :
    texts.find? (· ∉ Key.labels) = none ↔ ∀ text ∈ texts, text ∈ Key.labels := by
  simp [List.find?_eq_none]

theorem find?_unknown_append {good rest : List String} {bad : String}
    (hgood : ∀ text ∈ good, text ∈ Key.labels) (hbad : bad ∉ Key.labels) :
    (good ++ bad :: rest).find? (· ∉ Key.labels) = some bad := by
  rw [List.find?_append, find?_unknown_eq_none_iff.mpr hgood, Option.none_or,
    List.find?_cons_of_pos (by simpa using hbad)]

theorem firstUnknown?_eq_none_iff {number : ℕ} {lines : List String} :
    firstUnknown? number lines = none ↔
      ∀ line ∈ lines, ∀ text ∈ Token.split line, text ∈ Key.labels := by
  induction lines generalizing number with
  | nil => exact iff_of_true rfl (by simp)
  | cons line rest ih =>
    rw [firstUnknown?_cons, Option.or_eq_none_iff, Option.map_eq_none_iff,
      find?_unknown_eq_none_iff, ih, List.forall_mem_cons]

theorem entries_cons (s : Session) (line : String) (rest : List String) :
    entries s (line :: rest) =
      (if isBlankLine line then []
        else [trimmed line ++ " => " ++ (s.pressLabels (Token.split line)).display]) ++
        entries (s.pressLabels (Token.split line)) rest := by
  have hshift : rest.zipIdx 1 = rest.zipIdx.map fun (l, i) => (l, i + 1) := by
    rw [List.zipIdx_succ]
  have hrest : (((rest.zipIdx 1).filter fun (l, _) => !isBlankLine l).map fun (l, i) =>
      trimmed l ++ " => " ++
        (s.pressLabels (((line :: rest).take (i + 1)).flatMap Token.split)).display) =
      entries (s.pressLabels (Token.split line)) rest := by
    rw [hshift, List.filter_map, List.map_map]
    refine List.map_congr_left fun entry _ => ?_
    simp only [Function.comp_apply, List.take_succ_cons, List.flatMap_cons, pressLabels_append]
  rw [← hrest, entries, List.zipIdx_cons]
  cases hblank : isBlankLine line with
  | true =>
    rw [List.filter_cons_of_neg (by simp [hblank])]
    rfl
  | false =>
    rw [List.filter_cons_of_pos (by simp [hblank]), List.map_cons]
    simp

/-! ### The end of a replay -/

/-- A label presses its key. -/
theorem pressAll_cons_of_mem (s : Session) {label : String} (rest : List String)
    (h : label ∈ Key.labels) : ∃ key : Key, key.label = label ∧
      s.pressLabels [label] = (s.press key).1 ∧
        pressAll s (label :: rest) = ((s.press key).2 ++ (pressAll (s.press key).1 rest).1,
          (pressAll (s.press key).1 rest).2) := by
  obtain ⟨key, hkey⟩ := Key.mem_labels_iff.mp h
  have hlabel : label = key.label := Key.ofLabel?_eq_some_iff.mp hkey
  have hpress : s.pressLabel label = .ok (s.press key) := by rw [pressLabel, hkey]
  refine ⟨key, hlabel.symm, ?_, ?_⟩
  · rw [← after_press, ← hlabel]
    rfl
  · rw [pressAll, hpress]

/-- A text that is no label ends the presses. -/
theorem pressAll_cons_of_not_mem (s : Session) {label : String} (rest : List String)
    (h : label ∉ Key.labels) : pressAll s (label :: rest) = ([], .error (.unknown label)) := by
  have hpress : s.pressLabel label = .error (.unknown label) := by
    rw [pressLabel, Key.ofLabel?_eq_none h]
  rw [pressAll, hpress]

/-- **Pressing** ends with the first text that is no label. -/
theorem pressAll_eq (s : Session) (labels : List String) : (pressAll s labels).2 =
    match labels.find? (· ∉ Key.labels) with
    | none => .ok (s.pressLabels labels)
    | some label => .error (.unknown label) := by
  induction labels generalizing s with
  | nil => rfl
  | cons label labels ih =>
    by_cases hlabel : label ∈ Key.labels
    · obtain ⟨key, -, hafter, hpress⟩ := pressAll_cons_of_mem s labels hlabel
      rw [hpress, List.find?_cons_of_neg (by simpa using hlabel), ← List.singleton_append,
        pressLabels_append, hafter]
      exact ih _
    · rw [pressAll_cons_of_not_mem s labels hlabel,
        List.find?_cons_of_pos (by simpa using hlabel)]

/-- **A line of labels** logs what its keys log and then its entry. -/
theorem replayFrom_cons_of_none (number : ℕ) (s : Session) {line : String} (rest : List String)
    (h : (Token.split line).find? (· ∉ Key.labels) = none) :
    let next := s.pressLabels (Token.split line)
    let shown := if isBlankLine line then [] else [trimmed line ++ " => " ++ next.display]
    let later := replayFrom (number + 1) next rest
    replayFrom number s (line :: rest) =
      ((pressAll s (Token.split line)).1 ++ shown.map (logEntry number) ++ later.1,
        later.2.map (shown ++ ·)) := by
  intro next shown later
  have hpress := pressAll_eq s (Token.split line)
  rw [h] at hpress
  rw [replayFrom]
  dsimp only
  rw [isEmpty_trimmed, split_trimmed]
  cases hblank : isBlankLine line with
  | true =>
    have hnil := split_eq_nil_iff.mpr hblank
    have hshown : shown = [] := if_pos hblank
    have hlater : later = replayFrom (number + 1) s rest := by
      show replayFrom (number + 1) (s.pressLabels (Token.split line)) rest = _
      rw [hnil]
      rfl
    rw [hshown, hlater, hnil, if_pos rfl]
    generalize replayFrom (number + 1) s rest = replayed
    obtain ⟨log, result⟩ := replayed
    cases result <;> rfl
  | false =>
    have hshown : shown = [trimmed line ++ " => " ++ next.display] := if_neg (by simp [hblank])
    rw [hshown, if_neg Bool.false_ne_true]
    generalize pressAll s (Token.split line) = pressed at hpress ⊢
    obtain ⟨log, result⟩ := pressed
    cases hpress
    rw [List.append_assoc]
    rfl

/-- A line with a text that is no label logs what its keys log, and ends the replay. -/
theorem replayFrom_cons_of_some (number : ℕ) (s : Session) {line bad : String}
    (rest : List String) (h : (Token.split line).find? (· ∉ Key.labels) = some bad) :
    replayFrom number s (line :: rest) =
      ((pressAll s (Token.split line)).1, .error ⟨number, .unknown bad⟩) := by
  have hpress := pressAll_eq s (Token.split line)
  rw [h] at hpress
  have hblank : isBlankLine line = false := by
    rw [← Bool.not_eq_true, ← split_eq_nil_iff]
    exact List.ne_nil_of_mem (List.mem_of_find?_eq_some h)
  rw [replayFrom]
  dsimp only
  rw [isEmpty_trimmed, split_trimmed, hblank, if_neg Bool.false_ne_true]
  generalize pressAll s (Token.split line) = pressed at hpress ⊢
  obtain ⟨log, result⟩ := pressed
  cases hpress
  rfl

/-- **A replay** gives the entries of its lines, or ends with the first text that is no label. -/
theorem replayFrom_eq (number : ℕ) (s : Session) (lines : List String) :
    (replayFrom number s lines).2 =
      match firstUnknown? number lines with
      | none => .ok (entries s lines)
      | some (n, label) => .error ⟨n, .unknown label⟩ := by
  induction lines generalizing number s with
  | nil => rfl
  | cons line rest ih =>
    rw [firstUnknown?_cons, entries_cons]
    cases hfind : (Token.split line).find? (· ∉ Key.labels) with
    | some label =>
      rw [replayFrom_cons_of_some number s rest hfind]
      rfl
    | none =>
      rw [replayFrom_cons_of_none number s rest hfind]
      dsimp only
      rw [ih (number + 1), Option.map_none, Option.none_or]
      cases firstUnknown? (number + 1) rest <;> rfl

end Transcript

end Keypad
