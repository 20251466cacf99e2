import Keypad.Settings
import Keypad.Token

/-! # Evaluating an infix expression

The evaluator keeps two stacks.  A number goes on the operand stack.  Before an operator goes on the
operator stack, every stacked operator that binds at least as tightly is folded, that is applied to
the two topmost operands; so operators of equal precedence are applied from left to right.  What is
left at the end is folded, and the only remaining operand is the value.

The stacks do not depend on what the numbers are: `apply` may be any interpretation of the
operators. -/

namespace Keypad

/-- The stacks of an evaluation, the topmost element first. -/
structure Stacks (α : Type) where
  operands : List α
  operators : List Operator
  deriving DecidableEq

namespace Stacks

variable {α : Type}

/-- The stacks before the first token. -/
def empty : Stacks α := ⟨[], []⟩

/-- Folds the topmost operators as long as they bind at least as tightly as `level`. -/
def fold (apply : Operator → α → α → Except Fault α) (level : Nat) :
    List α → List Operator → Except Fault (Stacks α)
  | operands, [] => .ok ⟨operands, []⟩
  | operands, op :: ops =>
    if level ≤ op.precedence then
      match operands with
      | b :: a :: rest => do
        let c ← apply op a b
        fold apply level (c :: rest) ops
      | _ => .error (.missingOperand op.symbol)
    else .ok ⟨operands, op :: ops⟩

/-- The stacks after one more token. -/
def push (apply : Operator → α → α → Except Fault α) (s : Stacks α) :
    Token α → Except Fault (Stacks α)
  | .number x => .ok ⟨x :: s.operands, s.operators⟩
  | .operator op => do
    let s ← fold apply op.precedence s.operands s.operators
    .ok ⟨s.operands, op :: s.operators⟩

/-- The value when no token is left. -/
def finish (apply : Operator → α → α → Except Fault α) (s : Stacks α) : Except Fault α := do
  let s ← fold apply 0 s.operands s.operators
  match s.operands with
  | [x] => .ok x
  | xs => .error (.leftoverOperands xs.length)

end Stacks

/-- The stacks after one more token given by its text. -/
def readToken (settings : Settings) (s : Stacks Binary64) (token : String) :
    Except Fault (Stacks Binary64) := do
  let t ← Token.ofText token
  s.push (Operator.apply settings.zeroTolerance) t

/-- The stacks after the tokens of an expression. -/
def readTokens (settings : Settings) (tokens : List String) : Except Fault (Stacks Binary64) :=
  tokens.foldlM (readToken settings) Stacks.empty

/-- Whether the first or the last token is an operator. -/
def hasDanglingOperator (tokens : List String) : Bool :=
  tokens.head?.any Token.isOperator || tokens.getLast?.any Token.isOperator

theorem hasDanglingOperator_eq_false_iff {tokens : List String} :
    hasDanglingOperator tokens = false ↔ (∀ t ∈ tokens.head?, Token.isOperator t = false) ∧
      ∀ t ∈ tokens.getLast?, Token.isOperator t = false := by
  unfold hasDanglingOperator
  cases tokens.head? <;> cases tokens.getLast? <;> simp

/-- The value of an expression given by its tokens.  An expression may not begin or end with an
operator; all other faults are found from left to right. -/
def evaluate (settings : Settings) (tokens : List String) : Except Fault Binary64 :=
  if tokens.isEmpty then .error .empty
  else if hasDanglingOperator tokens then .error (.danglingOperator tokens)
  else do
    let s ← readTokens settings tokens
    s.finish (Operator.apply settings.zeroTolerance)

end Keypad
