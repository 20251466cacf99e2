import Keypad.Binary64.Arithmetic
import Keypad.Binary64.Decimal
import Keypad.Fault

/-! # Operators

The four binary operators, their symbols, how tightly they bind and what they compute.  Division
refuses a divisor that is close to zero: the divisors closer than the tolerance, which includes zero
under every tolerance. -/

namespace Keypad

/-- A binary operator. -/
inductive Operator where
  | add
  | sub
  | mul
  | div
  deriving DecidableEq

namespace Operator

/-- The character that stands for an operator. -/
def char : Operator → Char
  | .add => '+'
  | .sub => '-'
  | .mul => '*'
  | .div => '/'

/-- The text that stands for an operator. -/
def symbol (op : Operator) : String := String.ofList [op.char]

/-- The operator that a text stands for. -/
def ofSymbol? (s : String) : Option Operator :=
  [add, sub, mul, div].find? (·.symbol = s)

@[simp] theorem ofSymbol?_symbol (op : Operator) : ofSymbol? op.symbol = some op := by
  cases op <;> decide

/-- An operator is read from its symbol and from nothing else. -/
theorem ofSymbol?_eq_some_iff {s : String} {op : Operator} :
    ofSymbol? s = some op ↔ s = op.symbol := by
  constructor
  · intro h
    have hs := List.find?_some h
    simp only [decide_eq_true_eq] at hs
    exact hs.symm
  · rintro rfl
    exact ofSymbol?_symbol op

/-- How tightly an operator binds: `2` for products and quotients, `1` for sums and differences. -/
def precedence : Operator → Nat
  | .add => 1
  | .sub => 1
  | .mul => 2
  | .div => 2

theorem precedence_eq_one_or_two (op : Operator) : op.precedence = 1 ∨ op.precedence = 2 := by
  cases op <;> decide

/-- The value of an operator on numbers, whatever the divisor. -/
def compute : Operator → Binary64 → Binary64 → Binary64
  | .add, a, b => a + b
  | .sub, a, b => a - b
  | .mul, a, b => a * b
  | .div, a, b => a / b

/-- The relative tolerance of comparisons, one billionth. -/
def relativeTolerance : Binary64 := .ofDecimal false ⟨1, -9⟩

/-- Whether a divisor counts as zero. -/
def isZeroDivisor (tolerance divisor : Binary64) : Bool :=
  divisor.isClose (.zero false) relativeTolerance tolerance

/-- The value of an operator, or a division by zero within the tolerance. -/
def apply (tolerance : Binary64) (op : Operator) (a b : Binary64) : Except Fault Binary64 :=
  if op = .div && isZeroDivisor tolerance b then .error .divisionByZero
  else .ok (op.compute a b)

theorem apply_eq_ok {tolerance b : Binary64} {op : Operator}
    (h : op = .div → isZeroDivisor tolerance b = false) (a : Binary64) :
    apply tolerance op a b = .ok (op.compute a b) := by
  unfold apply
  by_cases hop : op = .div
  · simp [hop, h hop]
  · simp [hop]

theorem apply_div_eq_error {tolerance b : Binary64} (h : isZeroDivisor tolerance b = true)
    (a : Binary64) : apply tolerance .div a b = .error .divisionByZero := by
  simp [apply, h]

/-- Only a division fails. -/
theorem eq_of_apply_eq_error {tolerance a b : Binary64} {op : Operator} {fault : Fault}
    (h : apply tolerance op a b = .error fault) : op = .div ∧ fault = .divisionByZero := by
  unfold apply at h
  split at h
  · next hdiv =>
    simp only [Bool.and_eq_true, decide_eq_true_eq] at hdiv
    exact ⟨hdiv.1, (Except.error.inj h).symm⟩
  · cases h

/-! ## Operators given by their text -/

/-- The operator that a text stands for, or the failure that it stands for none. -/
def ofSymbol (s : String) : Except Fault Operator :=
  match ofSymbol? s with
  | some op => .ok op
  | none => .error (.invalidOperator s)

/-- Why an operation on arbitrary arguments is refused. -/
inductive Refusal where
  | fault (cause : Fault)
  | negativeTolerance
  deriving DecidableEq

/-- The message for a refused operation. -/
def Refusal.message : Refusal → String
  | .fault cause => cause.message
  | .negativeTolerance => "tolerances must be non-negative"

/-- Applies the operator that a text stands for under any tolerance.  Only division looks at the
tolerance, and refuses a negative one. -/
def applySymbol (symbol : String) (tolerance a b : Binary64) : Except Refusal Binary64 := do
  let op ← (ofSymbol symbol).mapError .fault
  if op = .div && tolerance.isNegative then .error .negativeTolerance
  else (op.apply tolerance a b).mapError .fault

end Operator

end Keypad
