import Keypad.Binary64.Shortest
import Keypad.Evaluation
import Keypad.Log

/-! # Outcomes

An outcome is what an evaluation ends with: the expression together with its value, or with the kind
and the message of the failure.  Each outcome has one log entry that tells it. -/

namespace Keypad

/-- The end of an evaluation. -/
inductive Outcome where
  | success (expression : String) (result : Binary64)
  | failure (expression : String) (kind : FaultKind) (message : String)
  deriving DecidableEq

namespace Outcome

/-- The tokens of an expression joined by single spaces. -/
def expressionText (tokens : List String) : String := " ".intercalate tokens

/-- The outcome of evaluating an expression given by its tokens. -/
def ofTokens (settings : Settings) (tokens : List String) : Outcome :=
  match evaluate settings tokens with
  | .ok x => .success (expressionText tokens) x
  | .error fault => .failure (expressionText tokens) fault.kind fault.message

theorem ofTokens_of_ok {settings : Settings} {tokens : List String} {x : Binary64}
    (h : evaluate settings tokens = .ok x) :
    ofTokens settings tokens = .success (expressionText tokens) x := by
  unfold ofTokens
  rw [h]

theorem ofTokens_of_error {settings : Settings} {tokens : List String} {fault : Fault}
    (h : evaluate settings tokens = .error fault) :
    ofTokens settings tokens = .failure (expressionText tokens) fault.kind fault.message := by
  unfold ofTokens
  rw [h]

/-- Whether an outcome is a success. -/
def isSuccess : Outcome → Bool
  | .success _ _ => true
  | .failure _ _ _ => false

/-- The text that replaces an expression on the display. -/
def display (settings : Settings) : Outcome → String
  | .success _ x => x.display settings.significantDigits
  | .failure _ _ _ => settings.errorText

/-- The log entry of an outcome. -/
def logEntry : Outcome → Log.Entry
  | .success expression x =>
    ⟨.debug, "🧮✅ " ++ expression ++ " = " ++ String.ofList x.writeShortest⟩
  | .failure expression _ message =>
    ⟨.error, "🧮❌ Could not evaluate " ++ Text.quoted expression ++ ": " ++ message⟩

end Outcome

end Keypad
