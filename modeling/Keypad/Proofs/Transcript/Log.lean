import Keypad.Proofs.Transcript.Replay

/-! # The log of a replay

A replay is logged by two layers.  Every `=` with an expression logs its outcome and the display
after it, and every line that is not blank logs its entry.  With the threshold at `info` the log
tells the same as the replay:

* `errorLogs`: the entries of the failed outcomes, in the order in which `=` is pressed;
* `story`: for every line that is not blank, these entries and then the entry of its transcript;
* `shown_pressAll`, `shown_replayFrom`: what pressing the keys of a line and replaying lines log;
* `replay_log`: the log of a replay, up to the key that ends it. -/

namespace Keypad

namespace Log

theorem shown_append (threshold : Level) (xs ys : List Entry) :
    shown threshold (xs ++ ys) = shown threshold xs ++ shown threshold ys :=
  List.filter_append xs ys

end Log

namespace Outcome

/-- What is logged as an error about an outcome. -/
def errorLog? : Outcome → Option Log.Entry
  | .success _ _ => none
  | .failure expression _ message =>
    some ⟨.error, "🧮❌ Could not evaluate " ++ Text.quoted expression ++ ": " ++ message⟩

/-- Of the log of an evaluation a failure is shown and nothing else. -/
theorem shown_evaluationLog (settings : Settings) (outcome : Outcome) (after : Expression) :
    Log.shown .info (Expression.evaluationLog settings outcome after) =
      outcome.errorLog?.toList := by
  cases outcome <;> rfl

end Outcome

namespace Key

theorem label_eq_equals_iff {key : Key} : key.label = "=" ↔ key = .equals := by
  constructor
  · intro h
    have hkey := ofLabel?_label key
    rw [h] at hkey
    exact (Option.some.inj hkey).symm
  · rintro rfl
    rfl

end Key

namespace Session

/-- The outcome that `=` leads to, unless there is nothing to evaluate. -/
def outcome? (s : Session) : Option Outcome :=
  if s.expression.tokens = [] then none else s.equals.1.lastOutcome

/-- What is logged as an error when a label is pressed. -/
def errorLog? (s : Session) (label : String) : Option Log.Entry :=
  if label = "=" then s.outcome?.bind Outcome.errorLog? else none

/-- **The failures on the way**: when labels are pressed, one entry for each `=` with a failed
outcome, in the order of the presses. -/
def errorLogs (s : Session) (labels : List String) : List Log.Entry :=
  labels.zipIdx.filterMap fun (label, i) => (s.pressLabels (labels.take i)).errorLog? label

theorem errorLogs_cons (s : Session) (label : String) (labels : List String) :
    s.errorLogs (label :: labels) =
      (s.errorLog? label).toList ++ (s.pressLabels [label]).errorLogs labels := by
  have hrest : ((labels.zipIdx 1).filterMap fun (l, i) =>
      (s.pressLabels ((label :: labels).take i)).errorLog? l) =
        (s.pressLabels [label]).errorLogs labels := by
    rw [List.zipIdx_succ, List.filterMap_map]
    rfl
  rw [← hrest, errorLogs, List.zipIdx_cons, List.filterMap_cons]
  have hnil : s.pressLabels [] = s := rfl
  simp only [List.take_zero, hnil]
  cases s.errorLog? label <;> rfl

/-- **One key** logs the failure of its evaluation, if it has one. -/
theorem shown_press (s : Session) (key : Key) :
    Log.shown .info (s.press key).2 = (s.errorLog? key.label).toList := by
  by_cases hkey : key = .equals
  · subst hkey
    rw [errorLog?, if_pos (Key.label_eq_equals_iff.mpr rfl), outcome?]
    by_cases hnil : s.expression.tokens = []
    · simp [press, equals, Expression.evaluate, hnil, Log.shown]
    · rw [if_neg hnil, equals_eq hnil, Option.bind_some]
      simp only [press, equals, Expression.evaluate, List.isEmpty_iff, hnil, if_false]
      exact Outcome.shown_evaluationLog ..
  · rw [errorLog?, if_neg (mt Key.label_eq_equals_iff.mp hkey)]
    cases key with
    | equals => exact absurd rfl hkey
    | number | operator | clear => rfl

end Session

namespace Transcript

open Session

/-! ### The keys of a line -/

/-- **Pressing labels** logs the failures on the way to the first text that is no label. -/
theorem shown_pressAll (s : Session) (labels : List String) :
    Log.shown .info (pressAll s labels).1 =
      s.errorLogs (labels.takeWhile (· ∈ Key.labels)) := by
  induction labels generalizing s with
  | nil => rfl
  | cons label labels ih =>
    by_cases hlabel : label ∈ Key.labels
    · obtain ⟨key, rfl, hafter, hpress⟩ := pressAll_cons_of_mem s labels hlabel
      rw [List.takeWhile_cons_of_pos (by simpa using hlabel), errorLogs_cons, hafter, ← ih,
        ← shown_press, ← Log.shown_append, hpress]
    · rw [List.takeWhile_cons_of_neg (by simpa using hlabel),
        pressAll_cons_of_not_mem s labels hlabel]
      rfl

/-! ### The lines of a script -/

/-- What is logged about a line: its number and its entry in the transcript. -/
def lineLog (number : ℕ) (e : String) : Log.Entry :=
  ⟨.info, "⌨️ Line " ++ toString number ++ ": " ++ e⟩

/-- **The story of a replay**: for every line that is not blank, the failures on the way through
its keys and then its entry in the transcript, with the number of the line. -/
def story (number : ℕ) (s : Session) (lines transcript : List String) : List Log.Entry :=
  ((lines.zipIdx.filter fun (line, _) => !isBlankLine line).zip transcript).flatMap
    fun ((line, i), e) =>
      (s.pressLabels ((lines.take i).flatMap Token.split)).errorLogs (Token.split line) ++
        [lineLog (number + i) e]

theorem story_cons (number : ℕ) (s : Session) (line : String) (rest : List String) (e : String)
    (es : List String) :
    let shown := if isBlankLine line then [] else [e]
    story number s (line :: rest) (shown ++ es) =
      s.errorLogs (Token.split line) ++ shown.map (lineLog number) ++
        story (number + 1) (s.pressLabels (Token.split line)) rest es := by
  intro shown
  have hrest : ((((rest.zipIdx 1).filter fun (l, _) => !isBlankLine l).zip es).flatMap
      fun ((l, i), e) =>
        (s.pressLabels (((line :: rest).take i).flatMap Token.split)).errorLogs
          (Token.split l) ++ [lineLog (number + i) e]) =
      story (number + 1) (s.pressLabels (Token.split line)) rest es := by
    rw [List.zipIdx_succ, List.filter_map, List.zip_map_left, List.flatMap_map]
    refine List.flatMap_congr fun entry _ => ?_
    simp only [Prod.map, id, List.take_succ_cons, List.flatMap_cons, pressLabels_append]
    rw [Nat.add_right_comm, Nat.add_assoc]
  rw [← hrest, story, List.zipIdx_cons]
  cases hblank : isBlankLine line with
  | true =>
    have hshown : shown = [] := if_pos hblank
    rw [hshown, List.filter_cons_of_neg (by simp [hblank]), split_eq_nil_iff.mpr hblank]
    rfl
  | false =>
    have hshown : shown = [e] := if_neg (by simp [hblank])
    rw [hshown, List.filter_cons_of_pos (by simp [hblank])]
    simp [pressLabels, run]

theorem length_entries (s : Session) (lines : List String) :
    (entries s lines).length = (lines.filter (!isBlankLine ·)).length := by
  induction lines generalizing s with
  | nil => rfl
  | cons line rest ih =>
    rw [entries_cons, List.length_append, ih]
    cases hblank : isBlankLine line <;> simp [hblank, Nat.add_comm]

/-- Of the entries of lines all are shown. -/
theorem shown_map_logEntry (number : ℕ) (es : List String) :
    Log.shown .info (es.map (logEntry number)) = es.map (lineLog number) := by
  show Log.shown .info (es.map (lineLog number)) = _
  rw [Log.shown, List.filter_eq_self, List.forall_mem_map]
  exact fun _ _ => rfl

/-- **Lines of labels** log their story. -/
theorem shown_replayFrom (number : ℕ) (s : Session) {lines : List String}
    (hlabels : ∀ line ∈ lines, ∀ text ∈ Token.split line, text ∈ Key.labels) :
    Log.shown .info (replayFrom number s lines).1 = story number s lines (entries s lines) := by
  induction lines generalizing number s with
  | nil => rfl
  | cons line rest ih =>
    obtain ⟨hline, hrest⟩ := List.forall_mem_cons.mp hlabels
    have hwhile : (Token.split line).takeWhile (· ∈ Key.labels) = Token.split line :=
      List.takeWhile_eq_self_iff.mpr (by simpa using hline)
    rw [replayFrom_cons_of_none number s rest (find?_unknown_eq_none_iff.mpr hline)]
    dsimp only
    rw [Log.shown_append, Log.shown_append, shown_map_logEntry, shown_pressAll, hwhile,
      ih _ _ hrest, entries_cons, story_cons]

/-- Lines after lines of labels log as if they were replayed where these end. -/
theorem log_replayFrom_append (number : ℕ) (s : Session) {earlier : List String}
    (hlabels : ∀ line ∈ earlier, ∀ text ∈ Token.split line, text ∈ Key.labels)
    (later : List String) :
    (replayFrom number s (earlier ++ later)).1 =
      (replayFrom number s earlier).1 ++
        (replayFrom (number + earlier.length) (s.pressLabels (earlier.flatMap Token.split))
          later).1 := by
  induction earlier generalizing number s with
  | nil => rfl
  | cons line earlier ih =>
    obtain ⟨hline, hearlier⟩ := List.forall_mem_cons.mp hlabels
    have hnone := find?_unknown_eq_none_iff.mpr hline
    have hnumber : number + 1 + earlier.length = number + (earlier.length + 1) := by omega
    rw [List.cons_append, replayFrom_cons_of_none _ _ _ hnone, replayFrom_cons_of_none _ _ _ hnone]
    dsimp only
    rw [ih _ _ hearlier, List.flatMap_cons, pressLabels_append, List.length_cons, hnumber]
    simp only [List.append_assoc]

/-! ### The key that ends a replay -/

/-- A text that is no label ends a replay: the lines before its line and the texts before it on its
line are labels. -/
structure Ends (lines earlier good : List String) (bad : String) : Prop where
  lines_eq : ∃ line later rest, lines = earlier ++ line :: later ∧
    Token.split line = good ++ bad :: rest
  earlier_labels : ∀ line ∈ earlier, ∀ text ∈ Token.split line, text ∈ Key.labels
  good_labels : ∀ text ∈ good, text ∈ Key.labels
  not_label : bad ∉ Key.labels

theorem exists_ends {number n : ℕ} {lines : List String} {bad : String}
    (h : firstUnknown? number lines = some (n, bad)) :
    ∃ earlier good, Ends lines earlier good bad ∧ n = number + earlier.length := by
  induction lines generalizing number with
  | nil => cases h
  | cons line lines ih =>
    rw [firstUnknown?_cons] at h
    cases hfind : (Token.split line).find? (· ∉ Key.labels) with
    | some text =>
      rw [hfind] at h
      cases h
      obtain ⟨hbad, good, rest, hsplit, hgood⟩ := List.find?_eq_some_iff_append.mp hfind
      exact ⟨[], good, ⟨⟨line, lines, rest, rfl, hsplit⟩, by simp, by simpa using hgood,
        by simpa using hbad⟩, rfl⟩
    | none =>
      rw [hfind] at h
      obtain ⟨earlier, good, ⟨⟨l, later, rest, rfl, hsplit⟩, hearlier, hgood, hbad⟩, rfl⟩ := ih h
      have hline := find?_unknown_eq_none_iff.mp hfind
      refine ⟨line :: earlier, good, ⟨⟨l, later, rest, rfl, hsplit⟩,
        List.forall_mem_cons.mpr ⟨hline, hearlier⟩, hgood, hbad⟩, ?_⟩
      rw [List.length_cons]
      omega

/-- A replay that ends with a text logs what the lines before its line log, and then the failures on
the way to it. -/
theorem Ends.shown_replay {lines earlier good : List String} {bad : String}
    (h : Ends lines earlier good bad) (settings : Settings) :
    Log.shown .info (replay settings lines).1 =
      Log.shown .info (replay settings earlier).1 ++
        ((start settings).pressLabels (earlier.flatMap Token.split)).errorLogs good := by
  obtain ⟨⟨line, later, rest, rfl, hsplit⟩, hearlier, hgood, hbad⟩ := h
  have hwhile : (Token.split line).takeWhile (· ∈ Key.labels) = good := by
    rw [hsplit, List.takeWhile_append_of_pos (by simpa using hgood),
      List.takeWhile_cons_of_neg (by simpa using hbad), List.append_nil]
  have hfind : (Token.split line).find? (· ∉ Key.labels) = some bad := by
    rw [hsplit, find?_unknown_append hgood hbad]
  rw [replay, replay, log_replayFrom_append 1 _ hearlier, Log.shown_append,
    replayFrom_cons_of_some _ _ _ hfind, shown_pressAll, hwhile]

/-- **The log tells the same as the replay.**  With the threshold at `info`, a replay that succeeds
logs for every line that is not blank, in order, one error for each `=` on it with a failed outcome,
in the order of the presses, and then the number of the line with its entry in the transcript.  A
replay that ends with a text that is no label logs all of the lines before its line, then the errors
of the keys before it on its line, and nothing else. -/
theorem replay_log (settings : Settings) (lines : List String) :
    match (replay settings lines).2 with
    | .ok transcript =>
      transcript.length = (lines.filter (!isBlankLine ·)).length ∧
        Log.shown .info (replay settings lines).1 = story 1 (start settings) lines transcript
    | .error failure => ∃ earlier good bad transcript, Ends lines earlier good bad ∧
      failure = ⟨earlier.length + 1, .unknown bad⟩ ∧
        (replay settings earlier).2 = .ok transcript ∧
          Log.shown .info (replay settings lines).1 =
            Log.shown .info (replay settings earlier).1 ++
              ((start settings).pressLabels (earlier.flatMap Token.split)).errorLogs
                good := by
  have hresult := replayFrom_eq 1 (start settings) lines
  cases hfirst : firstUnknown? 1 lines with
  | none =>
    rw [hfirst] at hresult
    rw [replay, hresult]
    exact ⟨length_entries _ lines, shown_replayFrom 1 _ (firstUnknown?_eq_none_iff.mp hfirst)⟩
  | some numbered =>
    obtain ⟨n, bad⟩ := numbered
    rw [hfirst] at hresult
    obtain ⟨earlier, good, hends, rfl⟩ := exists_ends hfirst
    have hearlier := replayFrom_eq 1 (start settings) earlier
    rw [firstUnknown?_eq_none_iff.mpr hends.earlier_labels] at hearlier
    have hlog := hends.shown_replay settings
    rw [replay] at hlog ⊢
    rw [hresult]
    exact ⟨earlier, good, bad, _, hends, by rw [Nat.add_comm], hearlier, hlog⟩

/-- The first `=` has nothing to evaluate, the third evaluates the error text, and the last line has
no entry. -/
example : Log.shown .info (replay .standard ["= 1 / 0 = =", " ", "= ^"]).1 =
    [⟨.error, "🧮❌ Could not evaluate '1 / 0': Cannot divide by zero"⟩,
      ⟨.error, "🧮❌ Could not evaluate 'Error': Invalid operator: 'Error'"⟩,
      ⟨.info, "⌨️ Line 1: = 1 / 0 = = => Error"⟩,
      ⟨.error, "🧮❌ Could not evaluate 'Error': Invalid operator: 'Error'"⟩] := by
  decide +kernel

end Transcript

end Keypad
