import Keypad.Proofs.Evaluation.Checked
import Keypad.Proofs.Transcript.Replay

/-! # Replays with checked evaluations

A replay in which every `=` is evaluated with its checks could also stop because an evaluation
breaks off.  It never does: it stops where the replay stops (`replayFrom_eq`).  So a replay succeeds
exactly if every text of the script is a label, whatever is computed on the way, and then shows the
display after the keys pressed so far (`replay_shows_presses`). -/

namespace Keypad

namespace Checked

/-- Why a checked replay stops. -/
inductive Stop where
  /-- A text is refused as a key. -/
  | refused (refusal : KeyRefusal)
  /-- The evaluation of an `=` breaks off. -/
  | broken (cause : Break)

/-- The session after a checked `=`. -/
def equals (s : Session) : Except Break Session := do
  let (outcome, after) ←
    evaluate s.settings.zeroTolerance s.settings.significantDigits s.settings.errorText s.expression
  .ok ⟨s.settings, after, outcome.or s.lastOutcome⟩

/-- The session after the key with a label. -/
def press (s : Session) (label : String) : Except Stop Session :=
  match Key.ofLabel? label with
  | some .equals => (equals s).mapError .broken
  | some key => .ok (s.press key).1
  | none => .error (.refused (.unknown label))

/-- Replays the lines from a line number on; a stop comes with the number of its line. -/
def replayFrom (number : ℕ) (s : Session) : List String → Except (ℕ × Stop) (List String)
  | [] => .ok []
  | line :: rest =>
    let line := Transcript.trimmed line
    if line.isEmpty then replayFrom (number + 1) s rest
    else do
      let next ← ((Token.split line).foldlM press s).mapError fun stop => (number, stop)
      let later ← replayFrom (number + 1) next rest
      .ok (Transcript.entry line next.display :: later)

/-- Replays the lines of a script on a fresh session. -/
def replay (settings : Settings) (lines : List String) : Except (ℕ × Stop) (List String) :=
  replayFrom 1 (.start settings) lines

theorem equals_eq (s : Session) : equals s = .ok s.equals.1 := by
  unfold equals
  by_cases hnil : s.expression.tokens = []
  · have hempty : s.expression.tokens.isEmpty = true := by simp [hnil]
    rw [evaluate, if_pos hempty, Session.equals_of_nil hnil]
    rfl
  · rw [(evaluate_eq s.settings s.settings hnil).1, Session.equals_eq hnil]
    rfl

theorem press_eq (s : Session) (label : String) :
    press s label = ((s.pressLabel label).map Prod.fst).mapError .refused := by
  unfold press Session.pressLabel
  cases Key.ofLabel? label with
  | none => rfl
  | some key =>
    cases key with
    | equals =>
      dsimp only
      rw [equals_eq]
      rfl
    | number key => rfl
    | operator op => rfl
    | clear => rfl

theorem foldlM_press (s : Session) (labels : List String) :
    labels.foldlM press s = (Transcript.pressAll s labels).2.mapError .refused := by
  induction labels generalizing s with
  | nil => rfl
  | cons label labels ih =>
    rw [List.foldlM_cons, press_eq, Transcript.pressAll]
    cases s.pressLabel label with
    | error refusal => rfl
    | ok next => exact ih next.1

/-- **No evaluation stops a replay**: with checked evaluations it ends as without. -/
theorem replayFrom_eq (number : ℕ) (s : Session) (lines : List String) :
    replayFrom number s lines =
      (Transcript.replayFrom number s lines).2.mapError fun f => (f.line, .refused f.refusal) := by
  induction lines generalizing number s with
  | nil => rfl
  | cons line rest ih =>
    unfold replayFrom Transcript.replayFrom
    dsimp only
    by_cases hempty : (Transcript.trimmed line).isEmpty = true
    · rw [if_pos hempty, if_pos hempty, ih]
    · rw [if_neg hempty, if_neg hempty, foldlM_press]
      generalize Transcript.pressAll s (Token.split (Transcript.trimmed line)) = pressed
      obtain ⟨log, result⟩ := pressed
      cases result with
      | error refusal => rfl
      | ok next =>
        show (replayFrom (number + 1) next rest >>= _) = _
        rw [ih]
        dsimp only
        generalize Transcript.replayFrom (number + 1) next rest = replayed
        obtain ⟨later, result⟩ := replayed
        cases result <;> rfl

end Checked

namespace Transcript

/-- The message for a text that is no label. -/
theorem message_unknown (n : ℕ) (text : String) : (Failure.mk n (.unknown text)).message =
    "Line " ++ toString n ++ ": Unknown key: " ++ Text.quoted text := by
  have hcolon : ": " ++ ("Unknown key: " ++ Text.quoted text) =
      ": Unknown key: " ++ Text.quoted text := by
    rw [← String.append_assoc]
    rfl
  rw [String.append_assoc, ← hcolon, ← String.append_assoc]
  rfl

/-- **A replay shows the presses of its keys.**  It succeeds exactly if every text of every line is
one of the 17 labels; then it gives, for every line that is not blank, the trimmed line and the
display of a fresh session after the keys of all lines up to and including that one.  Otherwise it
ends with the first text that is no label and the number of its line, blank lines counted.  No
evaluation that breaks off ever ends it. -/
theorem replay_shows_presses (settings : Settings) (lines : List String) :
    let result := (replay settings lines).2
    ((∃ transcript, result = .ok transcript) ↔
      ∀ line ∈ lines, ∀ text ∈ Token.split line, text ∈ Key.labels) ∧
    (∀ transcript, result = .ok transcript → transcript = entries (.start settings) lines) ∧
    (∀ failure, result = .error failure → ∃ n text,
      firstUnknown? 1 lines = some (n, text) ∧ failure = ⟨n, .unknown text⟩ ∧
        failure.message = "Line " ++ toString n ++ ": Unknown key: " ++ Text.quoted text) ∧
    Checked.replay settings lines =
      result.mapError fun failure => (failure.line, .refused failure.refusal) := by
  intro result
  have hresult := replayFrom_eq 1 (.start settings) lines
  have hchecked := Checked.replayFrom_eq 1 (.start settings) lines
  cases hfirst : firstUnknown? 1 lines with
  | none =>
    rw [hfirst] at hresult
    have hlabels := firstUnknown?_eq_none_iff.mp hfirst
    refine ⟨iff_of_true ⟨_, hresult⟩ hlabels, ?_, ?_, hchecked⟩
    · intro transcript hok
      exact (Except.ok.inj (hresult.symm.trans hok)).symm
    · intro failure herror
      cases hresult.symm.trans herror
  | some numbered =>
    obtain ⟨n, text⟩ := numbered
    rw [hfirst] at hresult
    have hsome : firstUnknown? 1 lines ≠ none := by simp [hfirst]
    refine ⟨iff_of_false ?_ (mt firstUnknown?_eq_none_iff.mpr hsome), ?_, ?_, hchecked⟩
    · rintro ⟨transcript, hok⟩
      cases hresult.symm.trans hok
    · intro transcript hok
      cases hresult.symm.trans hok
    · intro failure herror
      have hfailure := (Except.error.inj (hresult.symm.trans herror)).symm
      refine ⟨n, text, rfl, hfailure, ?_⟩
      rw [hfailure]
      exact message_unknown n text

end Transcript

end Keypad
