import Keypad.Proofs.Transcript.Checked
import Mathlib.Data.List.Infix

/-! # Handlers with their own tests

A text that is to be a key is tested more than once on its way: by the press of a label, which only
chooses a handler, by the handler of digits, and by the entry of numbers and of operators.  Here
each of them makes its own test, as it is written: a digit is a text of length one that occurs in
the text of all digits, an operator is a member of the list of operators.  A handler that stops
leaves the session as it is then, not as it was before (`Handled`).

The tests agree with each other: every handler does what the call does that it stands for
(`handle_eq`).  So a call is refused exactly for a text outside its own labels, a press that is let
through is never refused further down, and a run without its refused calls shows the same
(`refused_calls_do_nothing`). -/

namespace Keypad

namespace Handler

open Checked (Stop)

/-! ### Tests -/

/-- The operators as they are written. -/
def operators : List String := ["+", "-", "*", "/"]

/-- The labels of the digit keys. -/
def digits : List String := "0123456789".toList.map fun c => String.ofList [c]

/-- A text occurs in the text of all digits. -/
def InDigits (text : String) : Prop := text.toList <:+: "0123456789".toList

instance (text : String) : Decidable (InDigits text) :=
  inferInstanceAs (Decidable (text.toList <:+: "0123456789".toList))

/-- A press lets a label through. -/
def LetThrough (label : String) : Prop :=
  label = "=" ∨ label = "C" ∨ label ∈ operators ∨
    label.length = 1 ∧ (InDigits label ∨ label = ".")

/-- The text of a call is among the labels of its handler. -/
def inLabels : Call → Bool
  | .press label => label ∈ Key.labels
  | .digit text => text ∈ digits
  | .number text => text ∈ digits ++ ["."]
  | .operator text => text ∈ operators
  | .point => true
  | .equals => true
  | .clear => true

/-! ### Handlers -/

/-- What a handler leaves: the session, and the display or why the handler stopped. -/
structure Handled where
  session : Session
  result : Except Stop String

/-- What a handler leaves that reacts as a session does. -/
def Handled.ofReaction (r : Reaction) : Handled where
  session := r.session
  result := match r.refusal with
    | none => .ok r.session.display
    | some refusal => .error (.refused refusal)

/-- A handler ends with the display. -/
def shown (s : Session) : Handled := ⟨s, .ok s.display⟩

/-- A handler refuses a text. -/
def refused (s : Session) (refusal : KeyRefusal) : Handled := ⟨s, .error (.refused refusal)⟩

/-- The tokens after a text is typed. -/
def typeText (tokens : List String) (text : String) : List String :=
  match tokens.getLast? with
  | none => tokens ++ [text]
  | some last =>
    if Token.isOperator last then tokens ++ [text]
    else if text = "." ∧ last.contains '.' then tokens
    else tokens.dropLast ++ [last ++ text]

/-- Enters a digit or a point: first the test, then the new start, then the text. -/
def enterNumber (s : Session) (text : String) : Handled :=
  if text.length ≠ 1 ∨ (¬ InDigits text ∧ text ≠ ".") then refused s (.notNumberKey text)
  else
    let e := if s.expression.awaitingReset then ⟨[], false⟩ else s.expression
    shown (s.withExpression { e with tokens := typeText e.tokens text })

/-- Enters an operator. -/
def enterOperator (s : Session) (text : String) : Handled :=
  if text ∉ operators then refused s (.notOperator text)
  else
    match s.expression.tokens.getLast? with
    | none => shown s
    | some last =>
      if Token.isOperator last then shown s
      else shown (s.withExpression ⟨s.expression.tokens ++ [text], false⟩)

/-- Enters a digit. -/
def digit (s : Session) (text : String) : Handled :=
  if text.length ≠ 1 ∨ ¬ InDigits text then refused s (.notDigit text)
  else enterNumber s text

/-- Evaluates with all checks. -/
def equals (s : Session) : Handled :=
  match Checked.equals s with
  | .ok next => shown next
  | .error cause => ⟨s, .error (.broken cause)⟩

/-- Chooses the handler of a label. -/
def press (s : Session) (label : String) : Handled :=
  if label = "=" then equals s
  else if label = "C" then shown s.clear
  else if label ∈ operators then enterOperator s label
  else if label.length = 1 ∧ (InDigits label ∨ label = ".") then enterNumber s label
  else refused s (.unknown label)

/-- The handler of a call. -/
def handle (s : Session) : Call → Handled
  | .press label => press s label
  | .digit text => digit s text
  | .number text => enterNumber s text
  | .point => enterNumber s "."
  | .operator text => enterOperator s text
  | .equals => equals s
  | .clear => shown s.clear

/-- The calls of a run, each with what its handler leaves. -/
def trace (s : Session) : List Call → List (Call × Handled)
  | [] => []
  | c :: calls => (c, handle s c) :: trace (handle s c).session calls

/-! ### The tests agree -/

theorem mem_operators_iff {text : String} :
    text ∈ operators ↔ ∃ op, Operator.ofSymbol? text = some op := by
  constructor
  · have hall : ∀ text ∈ operators, (Operator.ofSymbol? text).isSome = true := by decide
    exact fun h => Option.isSome_iff_exists.mp (hall text h)
  · rintro ⟨op, hop⟩
    rw [Operator.ofSymbol?_eq_some_iff.mp hop]
    cases op <;> decide

theorem length_eq_one_iff {text : String} : text.length = 1 ↔ ∃ c, text = String.ofList [c] := by
  rw [← String.length_toList, List.length_eq_one_iff]
  simp only [← String.toList_inj, String.toList_ofList]

theorem inDigits_single (c : Char) : InDigits (String.ofList [c]) ↔ c.isDigit = true := by
  rw [InDigits, String.toList_ofList, List.singleton_infix_iff, Key.mem_digits_iff]

theorem mem_digits_iff {text : String} : text ∈ digits ↔ text.length = 1 ∧ InDigits text := by
  constructor
  · intro h
    obtain ⟨c, hc, rfl⟩ := List.mem_map.mp h
    exact ⟨String.length_ofList, (inDigits_single c).mpr (Key.mem_digits_iff.mp hc)⟩
  · rintro ⟨hlength, hdigit⟩
    obtain ⟨c, rfl⟩ := length_eq_one_iff.mp hlength
    exact List.mem_map.mpr ⟨c, Key.mem_digits_iff.mpr ((inDigits_single c).mp hdigit), rfl⟩

/-- The test of digits passes the labels of the digit keys. -/
theorem digit_test_iff {text : String} : text.length = 1 ∧ InDigits text ↔
    ∃ key, NumberKey.ofLabel? text = some key ∧ key.isDigit = true := by
  constructor
  · rintro ⟨hlength, hdigit⟩
    obtain ⟨c, rfl⟩ := length_eq_one_iff.mp hlength
    rw [inDigits_single] at hdigit
    let key : NumberKey := ⟨c, by simp [Token.isNumberChar, hdigit]⟩
    exact ⟨key, NumberKey.ofLabel?_label key, hdigit⟩
  · rintro ⟨key, hkey, hdigit⟩
    rw [NumberKey.ofLabel?_eq_some_iff.mp hkey]
    exact ⟨String.length_ofList, (inDigits_single key.char).mpr hdigit⟩

theorem label_eq_point_iff {key : NumberKey} : key.label = "." ↔ key = .point := by
  constructor
  · intro h
    have hkey := NumberKey.ofLabel?_label key
    rw [h] at hkey
    exact (Option.some.inj hkey).symm
  · rintro rfl
    rfl

/-- The test of digits and points passes the labels of the number keys. -/
theorem number_test_iff {text : String} : text.length = 1 ∧ (InDigits text ∨ text = ".") ↔
    ∃ key, NumberKey.ofLabel? text = some key := by
  constructor
  · rintro ⟨hlength, hdigit | rfl⟩
    · obtain ⟨key, hkey, -⟩ := digit_test_iff.mp ⟨hlength, hdigit⟩
      exact ⟨key, hkey⟩
    · exact ⟨.point, rfl⟩
  · rintro ⟨key, hkey⟩
    rw [NumberKey.ofLabel?_eq_some_iff.mp hkey]
    refine ⟨String.length_ofList, ?_⟩
    rcases key.char_cases with hdigit | hpoint
    · exact .inl ((inDigits_single key.char).mpr hdigit)
    · exact .inr (by rw [NumberKey.label, hpoint])

/-- The tests of a press pass the labels of all keys. -/
theorem letThrough_iff {label : String} : LetThrough label ↔ label ∈ Key.labels := by
  rw [Key.mem_labels_iff, LetThrough, mem_operators_iff, number_test_iff]
  unfold Key.ofLabel?
  by_cases hequals : label = "="
  · simp [hequals]
  by_cases hclear : label = "C"
  · simp [hclear]
  cases Operator.ofSymbol? label <;> simp [hequals, hclear]

/-! ### Every handler does what its call does -/

theorem openNumber?_eq (tokens : List String) : Expression.openNumber? tokens =
    match tokens.getLast? with
    | none => none
    | some last => if Token.isOperator last then none else some last := by
  unfold Expression.openNumber?
  cases tokens.getLast? with
  | none => rfl
  | some last => cases hop : Token.isOperator last <;> simp [hop]

theorem typeText_label (tokens : List String) (key : NumberKey) :
    typeText tokens key.label = Expression.typeChar tokens key := by
  unfold typeText Expression.typeChar
  rw [openNumber?_eq]
  cases tokens.getLast? with
  | none => rfl
  | some last => cases hop : Token.isOperator last <;> simp [hop, label_eq_point_iff]

/-- **Entering a number** refuses a text, or presses the number key of which it is the label. -/
theorem enterNumber_eq (s : Session) (text : String) : enterNumber s text =
    match NumberKey.ofLabel? text with
    | some key => shown (s.enterNumber key)
    | none => refused s (.notNumberKey text) := by
  unfold enterNumber
  cases hkey : NumberKey.ofLabel? text with
  | none =>
    have hnot : ¬ (text.length = 1 ∧ (InDigits text ∨ text = ".")) := by
      simp [number_test_iff, hkey]
    rw [if_pos (by tauto)]
  | some key =>
    have htest := number_test_iff.mpr ⟨key, hkey⟩
    rw [if_neg (by tauto)]
    obtain rfl := NumberKey.ofLabel?_eq_some_iff.mp hkey
    unfold Session.enterNumber Expression.enterNumber
    cases hwait : s.expression.awaitingReset <;> simp [hwait, typeText_label]

/-- **Entering an operator** refuses a text, or presses the operator key of which it is the
label. -/
theorem enterOperator_eq (s : Session) (text : String) : enterOperator s text =
    match Operator.ofSymbol? text with
    | some op => shown (s.enterOperator op)
    | none => refused s (.notOperator text) := by
  unfold enterOperator
  cases hop : Operator.ofSymbol? text with
  | none =>
    have hnot : text ∉ operators := by simp [mem_operators_iff, hop]
    rw [if_pos hnot]
  | some op =>
    have hmem : text ∈ operators := mem_operators_iff.mpr ⟨op, hop⟩
    rw [if_neg (not_not_intro hmem)]
    obtain rfl := Operator.ofSymbol?_eq_some_iff.mp hop
    unfold Session.enterOperator Expression.enterOperator
    rw [openNumber?_eq]
    cases s.expression.tokens.getLast? with
    | none => rfl
    | some last => cases hlast : Token.isOperator last <;> simp [hlast, Session.withExpression]

/-- **A digit** is entered as a number key. -/
theorem digit_eq (s : Session) (text : String) : digit s text =
    match NumberKey.ofLabel? text with
    | some key => if key.isDigit then shown (s.enterNumber key) else refused s (.notDigit text)
    | none => refused s (.notDigit text) := by
  unfold digit
  rw [enterNumber_eq]
  have htest := @digit_test_iff text
  cases hkey : NumberKey.ofLabel? text with
  | none =>
    have hnot : ¬ (text.length = 1 ∧ InDigits text) := by simp [htest, hkey]
    rw [if_pos (by tauto)]
  | some key =>
    cases hdigit : key.isDigit with
    | false =>
      have hnot : ¬ (text.length = 1 ∧ InDigits text) := by simp [htest, hkey, hdigit]
      rw [if_pos (by tauto)]
      simp [hdigit]
    | true =>
      have hpass := htest.mpr ⟨key, hkey, hdigit⟩
      rw [if_neg (by tauto)]
      simp [hdigit]

theorem equals_eq (s : Session) : equals s = shown s.equals.1 := by
  unfold equals
  rw [Checked.equals_eq]

/-- **A press** refuses a label, or presses its key. -/
theorem press_eq (s : Session) (label : String) : press s label =
    match Key.ofLabel? label with
    | some key => shown (s.press key).1
    | none => refused s (.unknown label) := by
  unfold press Key.ofLabel?
  by_cases hequals : label = "="
  · rw [if_pos hequals, if_pos hequals]
    exact equals_eq s
  rw [if_neg hequals, if_neg hequals]
  by_cases hclear : label = "C"
  · rw [if_pos hclear, if_pos hclear]
    rfl
  rw [if_neg hclear, if_neg hclear, enterOperator_eq, enterNumber_eq]
  cases hop : Operator.ofSymbol? label with
  | some op =>
    rw [if_pos (mem_operators_iff.mpr ⟨op, hop⟩)]
    rfl
  | none =>
    have hnot : label ∉ operators := by simp [mem_operators_iff, hop]
    rw [if_neg hnot]
    cases hkey : NumberKey.ofLabel? label with
    | some key =>
      rw [if_pos (number_test_iff.mpr ⟨key, hkey⟩)]
      rfl
    | none =>
      have hnumber : ¬ (label.length = 1 ∧ (InDigits label ∨ label = ".")) := by
        simp [number_test_iff, hkey]
      rw [if_neg hnumber]
      rfl

/-- **Every handler does what its call does.** -/
theorem handle_eq (s : Session) (c : Call) : handle s c = .ofReaction (s.react c) := by
  unfold Session.react
  cases c with
  | press label =>
    rw [handle, press_eq, Session.call, Session.pressLabel]
    cases Key.ofLabel? label <;> rfl
  | digit text =>
    rw [handle, digit_eq, Session.call]
    cases NumberKey.ofLabel? text with
    | none => rfl
    | some key => cases hdigit : key.isDigit <;> simp [hdigit] <;> rfl
  | number text =>
    rw [handle, enterNumber_eq, Session.call, Expression.enterNumberText]
    cases NumberKey.ofLabel? text <;> rfl
  | point =>
    rw [handle, enterNumber_eq]
    rfl
  | operator text =>
    rw [handle, enterOperator_eq, Session.call, Expression.enterOperatorText]
    cases Operator.ofSymbol? text <;> rfl
  | equals =>
    rw [handle, equals_eq]
    rfl
  | clear => rfl

/-! ### Refused calls -/

theorem inLabels_iff (s : Session) (c : Call) : inLabels c = true ↔ (s.react c).refusal = none := by
  unfold Session.react
  cases c with
  | press label =>
    rw [inLabels, decide_eq_true_eq, Key.mem_labels_iff, Session.call, Session.pressLabel]
    cases Key.ofLabel? label <;> simp
  | digit text =>
    rw [inLabels, decide_eq_true_eq, mem_digits_iff, digit_test_iff, Session.call]
    cases NumberKey.ofLabel? text with
    | none => simp
    | some key => cases hdigit : key.isDigit <;> simp [hdigit]
  | number text =>
    have hmem : text ∈ digits ++ ["."] ↔ text.length = 1 ∧ (InDigits text ∨ text = ".") := by
      rw [List.mem_append, List.mem_singleton, mem_digits_iff, and_or_left]
      exact or_congr_right ⟨fun h => ⟨by rw [h]; rfl, h⟩, And.right⟩
    rw [inLabels, decide_eq_true_eq, hmem, number_test_iff, Session.call,
      Expression.enterNumberText]
    cases NumberKey.ofLabel? text <;> simp [Except.map]
  | point => simp [inLabels, Session.call]
  | operator text =>
    rw [inLabels, decide_eq_true_eq, mem_operators_iff, Session.call,
      Expression.enterOperatorText]
    cases Operator.ofSymbol? text <;> simp [Except.map]
  | equals => simp [inLabels, Session.call]
  | clear => simp [inLabels, Session.call]

/-- A call outside the labels of its handler is refused, and the session stays. -/
theorem handle_of_not_inLabels {c : Call} (s : Session) (h : inLabels c = false) :
    ∃ refusal, handle s c = refused s refusal := by
  have hrefused : (s.react c).refusal ≠ none := by simp [← inLabels_iff, h]
  rw [handle_eq]
  unfold Session.react at hrefused ⊢
  cases hcall : s.call c with
  | ok next =>
    rw [hcall] at hrefused
    exact absurd rfl hrefused
  | error refusal => exact ⟨refusal, rfl⟩

theorem handle_of_inLabels {c : Call} (s : Session) (h : inLabels c = true) :
    handle s c = shown (handle s c).session := by
  have hnone := (inLabels_iff s c).mp h
  rw [handle_eq, Handled.ofReaction, hnone]
  rfl

/-- Without its refused calls a run shows the same. -/
theorem filter_trace (s : Session) (calls : List Call) :
    (trace s calls).filter (fun entry => inLabels entry.1) = trace s (calls.filter inLabels) := by
  induction calls generalizing s with
  | nil => rfl
  | cons c calls ih =>
    rw [trace]
    cases hlabels : inLabels c with
    | true => simp only [List.filter_cons, hlabels, if_true, trace, ih]
    | false =>
      -- the refused call leaves the session, from which the rest of the run starts
      obtain ⟨refusal, hrefused⟩ := handle_of_not_inLabels s hlabels
      simp only [List.filter_cons, hlabels, Bool.false_eq_true, if_false]
      rw [hrefused]
      exact ih s

/-- **Refused calls do nothing.**  In every session every handler, with its own tests, does what the
session does with the call.  It stops exactly for a text outside its own labels; then it refuses the
text and leaves the session as it was.  A run without its refused calls shows the same for every
other call.  And no label that the tests of a press let through is refused further down. -/
theorem refused_calls_do_nothing (s : Session) (calls : List Call) :
    (∀ c, handle s c = .ofReaction (s.react c)) ∧
    (∀ c, (∃ stop, (handle s c).result = .error stop) ↔ inLabels c = false) ∧
    (∀ c stop, (handle s c).result = .error stop →
      (handle s c).session = s ∧ ∃ refusal, stop = .refused refusal) ∧
    (trace s calls).filter (fun entry => inLabels entry.1) = trace s (calls.filter inLabels) ∧
    (∀ label, LetThrough label → ∃ text, (handle s (.press label)).result = .ok text) := by
  refine ⟨handle_eq s, fun c => ?_, fun c stop hstop => ?_, filter_trace s calls,
    fun label hlabel => ?_⟩
  · constructor
    · rintro ⟨stop, hstop⟩
      cases hlabels : inLabels c with
      | false => rfl
      | true =>
        rw [handle_of_inLabels s hlabels] at hstop
        cases hstop
    · intro hlabels
      obtain ⟨refusal, hrefused⟩ := handle_of_not_inLabels s hlabels
      exact ⟨.refused refusal, by rw [hrefused]; rfl⟩
  · cases hlabels : inLabels c with
    | false =>
      obtain ⟨refusal, hrefused⟩ := handle_of_not_inLabels s hlabels
      rw [hrefused] at hstop ⊢
      cases hstop
      exact ⟨rfl, refusal, rfl⟩
    | true =>
      rw [handle_of_inLabels s hlabels] at hstop
      cases hstop
  · have hlabels : inLabels (.press label) = true := decide_eq_true (letThrough_iff.mp hlabel)
    rw [handle_of_inLabels s hlabels]
    exact ⟨_, rfl⟩

end Handler

end Keypad
