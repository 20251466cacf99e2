import Keypad.Decimal.Numeral
import Keypad.Operator

/-! # Tokens

A token is a text without a meaning of its own; `Token.ofText` says what an evaluation makes of it:
a number if it can be read as one, otherwise an operator.  Texts of digits and points that are no
numbers, such as a lone point, are told apart from texts that are no operators. -/

namespace Keypad

/-- What a token stands for, over the values `α` of the numbers. -/
inductive Token (α : Type) where
  | number (value : α)
  | operator (op : Operator)

namespace Token

/-- The number that a text stands for. -/
def number? (s : String) : Option Binary64 := (Numeral.read? s.toList).map Numeral.value

/-- Whether a text is a number. -/
def isNumber (s : String) : Bool := (number? s).isSome

/-- Whether a text is an operator. -/
def isOperator (s : String) : Bool := (Operator.ofSymbol? s).isSome

/-- A character that is typed into a number: an ASCII digit or the point. -/
def isNumberChar (c : Char) : Bool := c.isDigit || c = '.'

/-- Whether a text is made of digits and points only, a number or not. -/
def looksNumeric (s : String) : Bool := !s.isEmpty && s.toList.all isNumberChar

/-- The meaning of a token. -/
def ofText (s : String) : Except Fault (Token Binary64) :=
  match number? s with
  | some x => .ok (.number x)
  | none =>
    if looksNumeric s then .error (.malformedNumber s)
    else (Operator.ofSymbol s).map .operator

/-- The tokens of an expression: its words. -/
def split (s : String) : List String := (Text.words s.toList).map String.ofList

/-! ## The three kinds of token -/

theorem isOperator_iff {s : String} : isOperator s = true ↔ ∃ op : Operator, s = op.symbol := by
  unfold isOperator
  rw [Option.isSome_iff_exists]
  simp only [Operator.ofSymbol?_eq_some_iff]

@[simp] theorem isOperator_symbol (op : Operator) : isOperator op.symbol = true :=
  isOperator_iff.mpr ⟨op, rfl⟩

theorem ofSymbol?_of_not_isOperator {s : String} (h : isOperator s = false) :
    Operator.ofSymbol? s = none := by
  unfold isOperator at h
  simpa using h

/-- No symbol of an operator is a number. -/
@[simp] theorem number?_symbol (op : Operator) : number? op.symbol = none := by
  cases op <;> rfl

@[simp] theorem isNumber_symbol (op : Operator) : isNumber op.symbol = false := by
  simp [isNumber]

theorem isOperator_of_isNumber {s : String} (h : isNumber s = true) : isOperator s = false := by
  cases ho : isOperator s with
  | false => rfl
  | true =>
    obtain ⟨op, rfl⟩ := isOperator_iff.mp ho
    simp at h

/-- No symbol of an operator is made of digits and points. -/
@[simp] theorem looksNumeric_symbol (op : Operator) : looksNumeric op.symbol = false := by
  cases op <;> decide

theorem isOperator_of_looksNumeric {s : String} (h : looksNumeric s = true) :
    isOperator s = false := by
  cases ho : isOperator s with
  | false => rfl
  | true =>
    obtain ⟨op, rfl⟩ := isOperator_iff.mp ho
    simp at h

theorem ofText_of_number? {s : String} {x : Binary64} (h : number? s = some x) :
    ofText s = .ok (.number x) := by
  unfold ofText
  rw [h]

@[simp] theorem ofText_symbol (op : Operator) : ofText op.symbol = .ok (.operator op) := by
  cases op <;> rfl

/-- A text that is neither a number nor an operator is a malformed number or an invalid operator. -/
theorem ofText_of_number?_eq_none {s : String} (h : number? s = none)
    (ho : isOperator s = false) :
    ofText s = .error (if looksNumeric s then .malformedNumber s else .invalidOperator s) := by
  have hs : Operator.ofSymbol s = .error (.invalidOperator s) := by
    unfold Operator.ofSymbol
    rw [ofSymbol?_of_not_isOperator ho]
  unfold ofText
  rw [h]
  dsimp only
  split
  · rfl
  · rw [hs]
    rfl

theorem looksNumeric_iff {s : String} : looksNumeric s = true ↔
    s.toList ≠ [] ∧ ∀ c ∈ s.toList, c.isDigit = true ∨ c = '.' := by
  simp [looksNumeric, isNumberChar]

/-- A malformed number is a text of digits and points that is no number. -/
theorem ofText_eq_malformedNumber_iff {s t : String} :
    ofText s = .error (.malformedNumber t) ↔
      t = s ∧ looksNumeric s = true ∧ isNumber s = false := by
  unfold ofText isNumber Operator.ofSymbol
  cases number? s with
  | some x => simp
  | none =>
    cases looksNumeric s with
    | true => simp [eq_comm]
    | false => cases Operator.ofSymbol? s <;> simp [Except.map]

/-- A text is a number, or an operator, or neither. -/
theorem kinds (s : String) :
    (∃ x, number? s = some x) ∨ (∃ op : Operator, s = op.symbol) ∨
      (number? s = none ∧ isOperator s = false) := by
  cases hn : number? s with
  | some x => exact Or.inl ⟨x, rfl⟩
  | none =>
    cases ho : isOperator s with
    | true => exact Or.inr (Or.inl (isOperator_iff.mp ho))
    | false => exact Or.inr (Or.inr ⟨rfl, rfl⟩)

end Token

/-- A text that is a number. -/
abbrev Numeric : Type := {s : String // Token.isNumber s = true}

namespace Numeric

/-- The number that a text stands for. -/
def value (x : Numeric) : Binary64 := (Token.number? x.1).get x.2

theorem number?_eq (x : Numeric) : Token.number? x.1 = some x.value :=
  (Option.some_get x.2).symm

end Numeric

end Keypad
