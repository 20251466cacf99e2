import Keypad.Text.Quoted

/-! # Why an expression has no value

Every cause of a failed evaluation with what it refers to.  Causes fall into three kinds, which is
what a reader of an outcome sees besides the message. -/

namespace Keypad

/-- The kinds of failure. -/
inductive FaultKind where
  | divisionByZero
  | invalidOperator
  | malformedExpression
  deriving DecidableEq

/-- The name under which a kind is reported. -/
def FaultKind.name : FaultKind → String
  | .divisionByZero => "division_by_zero"
  | .invalidOperator => "invalid_operator"
  | .malformedExpression => "malformed_expression"

/-- A cause of failure. -/
inductive Fault where
  /-- There is no token. -/
  | empty
  /-- The first or the last token is an operator. -/
  | danglingOperator (tokens : List String)
  /-- A token of digits and points that is no number. -/
  | malformedNumber (token : String)
  /-- A token that is neither a number nor an operator. -/
  | invalidOperator (token : String)
  /-- An operator finds fewer than two operands. -/
  | missingOperand (symbol : String)
  /-- The operators leave several operands over. -/
  | leftoverOperands (count : Nat)
  /-- A divisor is zero within the tolerance. -/
  | divisionByZero
  deriving DecidableEq

namespace Fault

/-- The kind of a cause. -/
def kind : Fault → FaultKind
  | .divisionByZero => .divisionByZero
  | .invalidOperator _ => .invalidOperator
  | _ => .malformedExpression

/-- The message for a cause. -/
def message : Fault → String
  | .empty => "Empty expression"
  | .danglingOperator tokens =>
    "Expression cannot start or end with an operator: " ++ " ".intercalate tokens
  | .malformedNumber token => "Malformed number: " ++ Text.quoted token
  | .invalidOperator token => "Invalid operator: " ++ Text.quoted token
  | .missingOperand symbol => "Not enough operands for " ++ Text.quoted symbol
  | .leftoverOperands count => s!"Expected one result, found {count} operands"
  | .divisionByZero => "Cannot divide by zero"

end Fault

end Keypad
