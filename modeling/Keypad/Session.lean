import Keypad.Expression

/-! # Calculator sessions

A session is an expression together with its settings and the outcome of the latest evaluation.  A
call either is refused and changes nothing, or leads to a new session and some log entries; what the
display shows afterwards depends on the new session alone. -/

namespace Keypad

/-- A calculator in use. -/
structure Session where
  settings : Settings
  expression : Expression
  /-- The outcome of the latest `=`, if `C` was not pressed since. -/
  lastOutcome : Option Outcome

/-- A use of the keypad: a key press by its label, or one intent of the user. -/
inductive Call where
  | press (label : String)
  | digit (text : String)
  | number (text : String)
  | point
  | operator (text : String)
  | equals
  | clear
  deriving DecidableEq

namespace Session

/-- A session before the first call. -/
def start (settings : Settings) : Session := ⟨settings, .empty, none⟩

/-- The text on the display. -/
def display (s : Session) : String := s.expression.display s.settings

/-- The session with another expression. -/
def withExpression (s : Session) (e : Expression) : Session := { s with expression := e }

/-- The session after a number key. -/
def enterNumber (s : Session) (key : NumberKey) : Session :=
  s.withExpression (s.expression.enterNumber key)

/-- The session after an operator key. -/
def enterOperator (s : Session) (op : Operator) : Session :=
  s.withExpression (s.expression.enterOperator op)

/-- The session after `=`, and the log entries of the evaluation. -/
def equals (s : Session) : Session × List Log.Entry :=
  match s.expression.evaluate s.settings s.settings with
  | none => (s, [])
  | some (outcome, after) =>
    (⟨s.settings, after, some outcome⟩, Expression.evaluationLog s.settings outcome after)

/-- The session after `C`. -/
def clear (s : Session) : Session := start s.settings

/-- The session after a key, and the log entries. -/
def press (s : Session) : Key → Session × List Log.Entry
  | .number key => (s.enterNumber key, [])
  | .operator op => (s.enterOperator op, [])
  | .equals => s.equals
  | .clear => (s.clear, [])

/-- The session after the key with a label. -/
def pressLabel (s : Session) (label : String) : Except KeyRefusal (Session × List Log.Entry) :=
  match Key.ofLabel? label with
  | some key => .ok (s.press key)
  | none => .error (.unknown label)

/-- The session after a call, and the log entries. -/
def call (s : Session) : Call → Except KeyRefusal (Session × List Log.Entry)
  | .press label => s.pressLabel label
  | .digit text =>
    match NumberKey.ofLabel? text with
    | some key =>
      if key.isDigit then .ok (s.enterNumber key, []) else .error (.notDigit text)
    | none => .error (.notDigit text)
  | .number text => (s.expression.enterNumberText text).map fun e => (s.withExpression e, [])
  | .point => .ok (s.enterNumber .point, [])
  | .operator text => (s.expression.enterOperatorText text).map fun e => (s.withExpression e, [])
  | .equals => .ok s.equals
  | .clear => .ok (s.clear, [])

/-- The session after a call that may be refused: a refused call leaves it as it is. -/
def after (s : Session) (c : Call) : Session :=
  match s.call c with
  | .ok (next, _) => next
  | .error _ => s

/-- The session after a sequence of calls. -/
def run (s : Session) (calls : List Call) : Session := calls.foldl after s

end Session

/-! ## Several sessions side by side -/

/-- What a call shows: how it ended, the session after it, and the log entries. -/
structure Reaction where
  refusal : Option KeyRefusal
  session : Session
  log : List Log.Entry

/-- The reaction of a session to a call. -/
def Session.react (s : Session) (c : Call) : Reaction :=
  match s.call c with
  | .ok (next, log) => ⟨none, next, log⟩
  | .error refusal => ⟨some refusal, s, []⟩

/-- The reactions of sessions to calls, each addressed to one of them by its position.  A call to a
position without a session has no reaction. -/
def reactions (sessions : List Session) : List (Nat × Call) → List Reaction
  | [] => []
  | (i, c) :: rest =>
    match sessions[i]? with
    | none => reactions sessions rest
    | some s =>
      let r := s.react c
      r :: reactions (sessions.set i r.session) rest

end Keypad
