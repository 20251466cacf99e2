import Keypad.Expression
import Keypad.Proofs.Binary64.Display
import Keypad.Proofs.Binary64.Divisor
import Keypad.Proofs.Evaluation.Stacks

/-! # Evaluation with its checks

An evaluation uses operations that are not defined everywhere: it takes from lists, reads texts as
numbers, compares under a tolerance, divides, and writes with a count of digits.  Here each of them
checks its arguments and breaks off where it is not defined (`Break`), operators are kept as texts,
and the tolerance, the count and the error text are any whatsoever.  Only faults end in an outcome;
every other break passes through.

Under the bounds of `Settings` no other break occurs.  Step by step the checked evaluation agrees
with the evaluation on operators (`foldWhile_symbols`, `readToken_symbols`, `compute_eq`), hence it
always ends with an outcome and a single text (`evaluate_total`). -/

namespace Keypad

/-- Why a checked evaluation breaks off. -/
inductive Break where
  /-- A fault of the expression, which the outcome reports. -/
  | fault (cause : Fault)
  /-- Something is taken from an empty list. -/
  | emptyList
  /-- A text that is no number is read as one. -/
  | notNumber (text : String)
  /-- Numbers are compared under a negative tolerance. -/
  | negativeTolerance
  /-- A number is divided by zero. -/
  | zeroDivision
  /-- A NaN or an infinity is made a whole number. -/
  | notFinite
  /-- A number is written with an impossible count of digits. -/
  | count (cause : Binary64.CountError)

namespace Checked

/-! ### Operations that are not defined everywhere -/

/-- The first element of a list, and the rest. -/
def pop {α : Type} : List α → Except Break (α × List α)
  | [] => .error .emptyList
  | x :: xs => .ok (x, xs)

/-- The last element of a list, and the rest. -/
def popLast {α : Type} (xs : List α) : Except Break (α × List α) :=
  match xs.getLast? with
  | none => .error .emptyList
  | some x => .ok (x, xs.dropLast)

def toNumber (token : String) : Except Break Binary64 :=
  match Token.number? token with
  | none => .error (.notNumber token)
  | some x => .ok x

def toOperator (symbol : String) : Except Break Operator :=
  match Operator.ofSymbol symbol with
  | .error cause => .error (.fault cause)
  | .ok op => .ok op

def isClose (x y relative absolute : Binary64) : Except Break Bool :=
  if absolute.isNegative then .error .negativeTolerance else .ok (x.isClose y relative absolute)

def divide (x y : Binary64) : Except Break Binary64 :=
  if y.sameValue (.zero false) then .error .zeroDivision else .ok (x / y)

/-- The value of the operator that a text stands for. -/
def apply (tolerance : Binary64) (symbol : String) (a b : Binary64) : Except Break Binary64 := do
  match ← toOperator symbol with
  | .div =>
    if ← isClose b (.zero false) Operator.relativeTolerance tolerance then
      .error (.fault .divisionByZero)
    else divide a b
  | op => .ok (op.compute a b)

def toWhole : Binary64 → Except Break (List Char)
  | .finite negative m =>
    .ok (Binary64.signText (negative && m.whole != 0) ++ Nat.toDigits 10 m.whole)
  | _ => .error .notFinite

/-- Whether the magnitude of a number is below a whole number. -/
def isBelow (limit : Nat) : Binary64 → Bool
  | .finite _ m => m.whole < limit
  | _ => false

/-- The text that the display shows for a number. -/
def display (count : Int) (x : Binary64) : Except Break String :=
  if x.isWhole && isBelow Binary64.wholeLimit x then (toWhole x).map String.ofList
  else
    match Binary64.checkCount count with
    | .error cause => .error (.count cause)
    | .ok n => .ok (String.ofList (Binary64.writeSignificant n x))

/-! ### The stacks -/

/-- The stacks of an evaluation, with the operators as they are written. -/
structure SymbolStacks where
  operands : List Binary64
  operators : List String

/-- Applies the topmost operator to the two topmost operands. -/
def foldTop (tolerance : Binary64) (s : SymbolStacks) : Except Break SymbolStacks := do
  let (op, operators) ← pop s.operators
  if s.operands.length < 2 then .error (.fault (.missingOperand op))
  else do
    let (b, operands) ← pop s.operands
    let (a, operands) ← pop operands
    let c ← apply tolerance op a b
    .ok ⟨c :: operands, operators⟩

/-- Folds while the topmost operator passes a test. -/
def foldWhile (tolerance : Binary64) (test : String → Except Break Bool) :
    List Binary64 → List String → Except Break SymbolStacks
  | operands, [] => .ok ⟨operands, []⟩
  | operands, op :: operators => do
    if ← test op then
      let s ← foldTop tolerance ⟨operands, op :: operators⟩
      foldWhile tolerance test s.operands operators
    else .ok ⟨operands, op :: operators⟩

/-- Whether an operator binds at least as tightly as a level. -/
def binds (level : Nat) (symbol : String) : Except Break Bool :=
  (toOperator symbol).map fun op => level ≤ op.precedence

/-- The test of the fold at the end, which takes every operator. -/
def always (_ : String) : Except Break Bool := .ok true

/-- The stacks after one more token. -/
def readToken (tolerance : Binary64) (s : SymbolStacks) (token : String) :
    Except Break SymbolStacks :=
  if Token.isNumber token then
    (toNumber token).map fun x => ⟨x :: s.operands, s.operators⟩
  else if Token.looksNumeric token then .error (.fault (.malformedNumber token))
  else do
    let op ← toOperator token
    let s ← foldWhile tolerance (binds op.precedence) s.operands s.operators
    .ok ⟨s.operands, token :: s.operators⟩

/-- The value of an expression given by its tokens. -/
def compute (tolerance : Binary64) (tokens : List String) : Except Break Binary64 :=
  if tokens.isEmpty then .error (.fault .empty)
  else do
    let (first, _) ← pop tokens
    let (last, _) ← popLast tokens
    if Token.isOperator first || Token.isOperator last then
      .error (.fault (.danglingOperator tokens))
    else do
      let s ← tokens.foldlM (readToken tolerance) ⟨[], []⟩
      let s ← foldWhile tolerance always s.operands s.operators
      if s.operands.length ≠ 1 then .error (.fault (.leftoverOperands s.operands.length))
      else (pop s.operands).map Prod.fst

/-- The outcome of evaluating an expression given by its tokens: only faults are reported. -/
def outcome (tolerance : Binary64) (tokens : List String) : Except Break Outcome :=
  match compute tolerance tokens with
  | .ok x => .ok (.success (Outcome.expressionText tokens) x)
  | .error (.fault cause) =>
    .ok (.failure (Outcome.expressionText tokens) cause.kind cause.message)
  | .error cause => .error cause

/-- The outcome of `=`, if there is an expression, and the expression that it leaves. -/
def evaluate (tolerance : Binary64) (count : Int) (errorText : String) (e : Expression) :
    Except Break (Option Outcome × Expression) :=
  if e.tokens.isEmpty then .ok (none, e)
  else do
    let (last, front) ← popLast e.tokens
    let outcome ← outcome tolerance (if Token.isOperator last then front else e.tokens)
    let text ←
      match outcome with
      | .success _ x => display count x
      | .failure _ _ _ => .ok errorText
    .ok (some outcome, ⟨[text], true⟩)

/-! ### Checks that are passed -/

/-- A result of the evaluation on operators, as the checked evaluation gives it. -/
def lift {α β : Type} (f : α → β) : Except Fault α → Except Break β
  | .ok a => .ok (f a)
  | .error cause => .error (.fault cause)

@[simp] theorem lift_ok {α β : Type} (f : α → β) (a : α) : lift f (.ok a) = .ok (f a) := rfl

theorem toOperator_symbol (op : Operator) : toOperator op.symbol = .ok op := by
  unfold toOperator Operator.ofSymbol
  rw [Operator.ofSymbol?_symbol]

theorem isNegative_eq_false {x : Binary64} (h : Binary64.zero false ≤ x) :
    x.isNegative = false := by
  have hle : (Binary64.zero false).le x = true := h
  simp [Binary64.isNegative, hle]

/-- An operator on numbers: neither the tolerance nor a zero divisor is in the way. -/
theorem apply_symbol {tolerance : Binary64} (h : Binary64.zero false ≤ tolerance) (op : Operator)
    (a b : Binary64) : apply tolerance op.symbol a b = lift id (op.apply tolerance a b) := by
  have hsign := isNegative_eq_false h
  unfold apply
  rw [toOperator_symbol, ok_bind]
  by_cases hop : op = .div
  · subst hop
    dsimp only
    have hclose : isClose b (.zero false) Operator.relativeTolerance tolerance =
        .ok (Operator.isZeroDivisor tolerance b) := by
      rw [isClose, if_neg (by simp [hsign])]
      rfl
    rw [hclose, ok_bind]
    cases hzero : Operator.isZeroDivisor tolerance b with
    | true =>
      rw [Operator.apply_div_eq_error hzero]
      rfl
    | false =>
      have hne : b.sameValue (.zero false) = false := by
        cases hsame : b.sameValue (.zero false) with
        | false => rfl
        | true =>
          -- zero is close to zero
          rw [Operator.isZeroDivisor, Binary64.isClose, if_pos hsame] at hzero
          cases hzero
      rw [Operator.apply_eq_ok (fun _ => hzero), if_neg (by decide), divide, if_neg (by simp [hne])]
      rfl
  · rw [Operator.apply_eq_ok (fun h => absurd h hop)]
    cases op with
    | div => exact absurd rfl hop
    | add => rfl
    | sub => rfl
    | mul => rfl

/-! ### Step by step -/

/-- The stacks of an evaluation, with the operators as they are written. -/
def symbols (s : Stacks Binary64) : SymbolStacks := ⟨s.operands, s.operators.map Operator.symbol⟩

section Steps

variable {tolerance : Binary64} (htol : Binary64.zero false ≤ tolerance)
include htol

/-- **Folding** takes from no empty stack. -/
theorem foldWhile_symbols {test : String → Except Break Bool} {level : ℕ}
    (htest : ∀ op : Operator, test op.symbol = .ok (decide (level ≤ op.precedence)))
    (ops : List Operator) (xs : List Binary64) :
    foldWhile tolerance test xs (ops.map Operator.symbol) =
      lift symbols (Stacks.fold (Operator.apply tolerance) level xs ops) := by
  induction ops generalizing xs with
  | nil =>
    rw [Stacks.fold]
    rfl
  | cons op ops ih =>
    rw [List.map_cons, foldWhile, htest, ok_bind]
    by_cases hle : level ≤ op.precedence
    · rw [if_pos (by simpa using hle)]
      rcases xs with _ | ⟨b, _ | ⟨a, xs⟩⟩
      · rw [Stacks.fold.eq_def]
        simp only [if_pos hle]
        rfl
      · rw [Stacks.fold.eq_def]
        simp only [if_pos hle]
        rfl
      · have hlength : ¬ (b :: a :: xs).length < 2 := by simp
        rw [Stacks.fold_cons hle]
        simp only [foldTop, pop, ok_bind, if_neg hlength]
        rw [apply_symbol htol]
        cases op.apply tolerance a b with
        | error cause => rfl
        | ok c => exact ih (c :: xs)
    · have hlt : ∀ p ∈ (op :: ops).head?, Operator.precedence p < level := by
        rintro p ⟨⟩
        omega
      rw [if_neg (by simpa using hle), Stacks.fold_of_lt hlt]
      rfl

theorem readToken_symbols {settings : Settings} (hsettings : settings.zeroTolerance = tolerance)
    (s : Stacks Binary64) (token : String) :
    readToken tolerance (symbols s) token = lift symbols (Keypad.readToken settings s token) := by
  unfold readToken Keypad.readToken
  rw [hsettings]
  rcases Token.kinds token with ⟨x, hx⟩ | ⟨op, rfl⟩ | ⟨hnone, hop⟩
  · have hnum : Token.isNumber token = true := by simp [Token.isNumber, hx]
    rw [if_pos hnum, toNumber, hx, Token.ofText_of_number? hx]
    rfl
  · have hbinds : ∀ p : Operator, binds op.precedence p.symbol =
        .ok (decide (op.precedence ≤ p.precedence)) := by
      intro p
      rw [binds, toOperator_symbol]
      rfl
    have hfold := foldWhile_symbols htol hbinds s.operators s.operands
    rw [if_neg (by simp), if_neg (by simp), toOperator_symbol, ok_bind,
      Token.ofText_symbol, ok_bind]
    simp only [symbols, Stacks.push]
    rw [hfold]
    cases Stacks.fold (Operator.apply tolerance) op.precedence s.operands s.operators with
    | error cause => rfl
    | ok next => rfl
  · have hnum : Token.isNumber token = false := by simp [Token.isNumber, hnone]
    rw [if_neg (by simp [hnum]), Token.ofText_of_number?_eq_none hnone hop]
    cases hlooks : Token.looksNumeric token with
    | true => rfl
    | false =>
      have hnot : Operator.ofSymbol token = .error (.invalidOperator token) := by
        rw [Operator.ofSymbol, Token.ofSymbol?_of_not_isOperator hop]
      rw [if_neg (by decide), toOperator, hnot]
      rfl

theorem readTokens_symbols {settings : Settings} (hsettings : settings.zeroTolerance = tolerance)
    (tokens : List String) (s : Stacks Binary64) :
    tokens.foldlM (readToken tolerance) (symbols s) =
      lift symbols (tokens.foldlM (Keypad.readToken settings) s) := by
  induction tokens generalizing s with
  | nil => rfl
  | cons token tokens ih =>
    rw [List.foldlM_cons, List.foldlM_cons, readToken_symbols htol hsettings]
    cases Keypad.readToken settings s token with
    | error cause => rfl
    | ok next => exact ih next

end Steps

/-- **The value** of an expression under settings: nothing but a fault breaks off. -/
theorem compute_eq (settings : Settings) (tokens : List String) :
    compute settings.zeroTolerance tokens = lift id (Keypad.evaluate settings tokens) := by
  have htol := settings.zero_le_zeroTolerance
  unfold compute Keypad.evaluate
  match tokens with
  | [] => rfl
  | token :: tokens =>
    obtain ⟨last, hlast⟩ : ∃ last, (token :: tokens).getLast? = some last :=
      ⟨_, List.getLast?_eq_some_getLast (List.cons_ne_nil _ _)⟩
    have hdangling : hasDanglingOperator (token :: tokens) =
        (Token.isOperator token || Token.isOperator last) := by
      rw [hasDanglingOperator, hlast]
      rfl
    have hlast' : popLast (token :: tokens) = .ok (last, (token :: tokens).dropLast) := by
      rw [popLast, hlast]
    rw [if_neg (by simp), if_neg (by simp), hlast', hdangling]
    simp only [pop, ok_bind]
    by_cases hop : (Token.isOperator token || Token.isOperator last) = true
    · rw [if_pos hop, if_pos hop]
      rfl
    · have hread := readTokens_symbols htol rfl (token :: tokens) .empty
      rw [if_neg hop, if_neg hop, readTokens]
      rw [show (⟨[], []⟩ : SymbolStacks) = symbols .empty from rfl, hread]
      cases (token :: tokens).foldlM (Keypad.readToken settings) .empty with
      | error cause => rfl
      | ok s =>
        have htest : ∀ op : Operator, always op.symbol = .ok (decide (0 ≤ op.precedence)) :=
          fun op => by simp [always]
        have hfold := foldWhile_symbols htol htest s.operators s.operands
        simp only [lift_ok, ok_bind, Stacks.finish]
        show (foldWhile settings.zeroTolerance always s.operands
          (s.operators.map Operator.symbol) >>= _) = _
        rw [hfold]
        cases Stacks.fold (Operator.apply settings.zeroTolerance) 0 s.operands s.operators with
        | error cause => rfl
        | ok next =>
          simp only [lift_ok, ok_bind, symbols]
          rcases next.operands with _ | ⟨x, _ | ⟨y, rest⟩⟩
          · rfl
          · rfl
          · rfl

theorem outcome_eq (settings : Settings) (tokens : List String) :
    outcome settings.zeroTolerance tokens = .ok (Outcome.ofTokens settings tokens) := by
  unfold outcome Outcome.ofTokens
  rw [compute_eq]
  cases Keypad.evaluate settings tokens with
  | error cause => rfl
  | ok x => rfl

/-- A whole number is finite, and up to 17 digits are possible. -/
theorem display_eq {count : ℕ} (hcount : count ≤ 17) (x : Binary64) :
    display count x = .ok (x.display count) := by
  have hcheck : Binary64.checkCount count = .ok count := by
    have hpos : ¬ (count : ℤ) < 0 := by omega
    have hlong : ¬ 2 ^ 63 ≤ (count : ℤ) := by omega
    have hbig : ¬ 2 ^ 31 ≤ (count : ℤ) := by omega
    rw [Binary64.checkCount, if_neg hpos, if_neg hlong, if_neg hbig, Int.toNat_natCast]
  unfold display Binary64.display
  rw [hcheck]
  match x with
  | .nan => rfl
  | .infinite s => rfl
  | .finite s m =>
    have htest : ((Binary64.finite s m).isWhole && isBelow Binary64.wholeLimit (.finite s m)) =
        (m.isWhole && decide (m.whole < Binary64.wholeLimit)) := rfl
    by_cases hplain : (m.isWhole && decide (m.whole < Binary64.wholeLimit)) = true
    · have hsome : (Binary64.finite s m).plainWhole? =
          some (Binary64.signText (s && m.whole != 0) ++ Nat.toDigits 10 m.whole) := if_pos hplain
      rw [if_pos (htest.trans hplain), hsome]
      rfl
    · have hnone : (Binary64.finite s m).plainWhole? = none := if_neg hplain
      rw [if_neg (htest ▸ hplain), hnone]
      rfl

/-- The checked evaluation of some tokens gives what their evaluation gives. -/
theorem evaluate_eq (shown evaluated : Settings) {e : Expression} (hne : e.tokens ≠ []) :
    let outcome := Outcome.ofTokens evaluated (Expression.operandTokens e.tokens)
    evaluate evaluated.zeroTolerance shown.significantDigits shown.errorText e =
        .ok (some outcome, ⟨[outcome.display shown], true⟩) ∧
      e.evaluate shown evaluated = some (outcome, ⟨[outcome.display shown], true⟩) := by
  have hempty : ¬ e.tokens.isEmpty = true := by simpa using hne
  obtain ⟨last, hlast⟩ : ∃ last, e.tokens.getLast? = some last :=
    ⟨_, List.getLast?_eq_some_getLast hne⟩
  have hoperands : Expression.operandTokens e.tokens =
      if Token.isOperator last then e.tokens.dropLast else e.tokens := by
    rw [Expression.operandTokens, hlast]
    rfl
  have hlast' : popLast e.tokens = .ok (last, e.tokens.dropLast) := by rw [popLast, hlast]
  refine ⟨?_, if_neg hempty⟩
  unfold evaluate
  rw [if_neg hempty, hlast', ok_bind]
  dsimp only
  rw [← hoperands, outcome_eq, ok_bind]
  cases Outcome.ofTokens evaluated (Expression.operandTokens e.tokens) with
  | success expression x =>
    dsimp only
    rw [display_eq shown.significantDigits_le, ok_bind]
    rfl
  | failure expression kind message => rfl

theorem display_ne_empty (settings : Settings) (outcome : Outcome) :
    outcome.display settings ≠ "" := by
  cases outcome with
  | success expression x =>
    intro htext
    have hnum := Binary64.isNumber_display settings.significantDigits_pos x
    have hnone : Token.isNumber "" = false := by decide
    rw [show x.display settings.significantDigits = "" from htext, hnone] at hnum
    cases hnum
  | failure expression kind message => exact settings.errorText_ne_empty

/-- **Nothing else breaks off.**  Under the settings of the display and those of the evaluation, the
checked evaluation of any expression gives what the evaluation gives: nothing for no tokens, and
otherwise an outcome and the single text that displays it. -/
theorem evaluate_total (shown evaluated : Settings) (e : Expression) :
    let result := evaluate evaluated.zeroTolerance shown.significantDigits shown.errorText e
    (e.tokens = [] → result = .ok (none, e) ∧ e.evaluate shown evaluated = none) ∧
      (e.tokens ≠ [] → ∃ outcome text,
        result = .ok (some outcome, ⟨[text], true⟩) ∧
          e.evaluate shown evaluated = some (outcome, ⟨[text], true⟩) ∧ text ≠ "" ∧
          ((∃ expression x, outcome = .success expression x ∧
              text = x.display shown.significantDigits) ∨
            ∃ expression kind message, outcome = .failure expression kind message ∧
              text = shown.errorText)) := by
  intro result
  constructor
  · intro hnil
    have hempty : e.tokens.isEmpty = true := by simp [hnil]
    exact ⟨if_pos hempty, if_pos hempty⟩
  · intro hne
    obtain ⟨hresult, hmodel⟩ := evaluate_eq shown evaluated hne
    refine ⟨_, _, hresult, hmodel, display_ne_empty shown _, ?_⟩
    cases Outcome.ofTokens evaluated (Expression.operandTokens e.tokens) with
    | success expression x => exact Or.inl ⟨expression, x, rfl, rfl⟩
    | failure expression kind message => exact Or.inr ⟨expression, kind, message, rfl, rfl⟩

end Checked

end Keypad
