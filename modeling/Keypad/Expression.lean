import Keypad.Key
import Keypad.Outcome

/-! # The expression being entered

The expression grows by one key at a time.  A number holds at most one point, an expression does not
begin with an operator, and no two operators follow each other: keys that would break this change
nothing.  An evaluation leaves a single token, the result or the error text; the next number key
then starts over, while an operator continues from that token. -/

namespace Keypad

/-- An expression under construction. -/
structure Expression where
  /-- Numbers and operators in the order entered. -/
  tokens : List String
  /-- Set by an evaluation: the next number key starts a new expression. -/
  awaitingReset : Bool
  deriving DecidableEq

namespace Expression

/-- The expression before the first key. -/
def empty : Expression := ⟨[], false⟩

instance : Inhabited Expression := ⟨empty⟩

/-- The text on the display: the tokens joined by single spaces. -/
def display (settings : Settings) (e : Expression) : String :=
  if e.tokens.isEmpty then settings.emptyDisplay else " ".intercalate e.tokens

/-- The number that the next number key continues, if any. -/
def openNumber? (tokens : List String) : Option String :=
  tokens.getLast?.filter (!Token.isOperator ·)

/-- The tokens after a number key. -/
def typeChar (tokens : List String) (key : NumberKey) : List String :=
  match openNumber? tokens with
  | none => tokens ++ [key.label]
  | some last =>
    if key = .point && last.contains '.' then tokens
    else tokens.dropLast ++ [last ++ key.label]

/-- The expression after a number key. -/
def enterNumber (e : Expression) (key : NumberKey) : Expression :=
  if e.awaitingReset then ⟨typeChar [] key, false⟩ else { e with tokens := typeChar e.tokens key }

/-- The expression after an operator key. -/
def enterOperator (e : Expression) (op : Operator) : Expression :=
  match openNumber? e.tokens with
  | none => e
  | some _ => ⟨e.tokens ++ [op.symbol], false⟩

/-- The tokens that an evaluation takes: those entered, without an operator at the end. -/
def operandTokens (tokens : List String) : List String :=
  if tokens.getLast?.any Token.isOperator then tokens.dropLast else tokens

/-- Evaluates a non-empty expression.  The first settings are those of the display, the second ones
those of the evaluation. -/
def evaluate (shown evaluated : Settings) (e : Expression) : Option (Outcome × Expression) :=
  if e.tokens.isEmpty then none
  else
    let outcome := Outcome.ofTokens evaluated (operandTokens e.tokens)
    some (outcome, ⟨[outcome.display shown], true⟩)

/-- The log entries of an evaluation that ended with an outcome and left an expression. -/
def evaluationLog (settings : Settings) (outcome : Outcome) (after : Expression) :
    List Log.Entry :=
  [outcome.logEntry, ⟨.debug, "🧮 Display after evaluation: " ++ after.display settings⟩]

/-! ## Keys given by their text -/

/-- The expression after the number key that a text stands for. -/
def enterNumberText (e : Expression) (s : String) : Except KeyRefusal Expression :=
  match NumberKey.ofLabel? s with
  | some key => .ok (e.enterNumber key)
  | none => .error (.notNumberKey s)

/-- The expression after the operator key that a text stands for. -/
def enterOperatorText (e : Expression) (s : String) : Except KeyRefusal Expression :=
  match Operator.ofSymbol? s with
  | some op => .ok (e.enterOperator op)
  | none => .error (.notOperator s)

end Expression

end Keypad
