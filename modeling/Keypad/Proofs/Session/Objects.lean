import Keypad.Proofs.Session.Shape

/-! # Sessions as objects

Here sessions are objects that refer to each other: a session to its builder, a builder to its
state, a state to the list of its tokens.  All of them live in one memory.  A reference is the
position of an object among those of its class, so nothing keeps two objects from referring to the
same one.  Typing changes a list in place, an assignment of tokens leaves the list for a new one,
and the other objects change by the assignment of a field.  What never changes once it is made
(settings, outcomes, texts) is a value.

* `Represents`: the objects reached from a session are those of a session value.
* `Advances`: only the fields, the state and the tokens of one session have changed, and a list that
  it did not have before is a new one.
* `Becomes`: a step of a session does both.  Every step does (`Represents.assignTokens`, …), and so
  does every key (`Represents.press`): the objects change as the value does.
* `Represents.other`: the objects of a session that shares nothing with it stay. -/

namespace Keypad

/-! ### Calls as keys -/

/-- The key that a call presses, or why it is refused. -/
def Call.key : Call → Except KeyRefusal Key
  | .press label => (Key.ofLabel? label).elim (.error (.unknown label)) .ok
  | .digit text =>
    match NumberKey.ofLabel? text with
    | some key => if key.isDigit then .ok (.number key) else .error (.notDigit text)
    | none => .error (.notDigit text)
  | .number text =>
    (NumberKey.ofLabel? text).elim (.error (.notNumberKey text)) fun key => .ok (.number key)
  | .point => .ok (.number .point)
  | .operator text =>
    (Operator.ofSymbol? text).elim (.error (.notOperator text)) fun op => .ok (.operator op)
  | .equals => .ok .equals
  | .clear => .ok .clear

/-- **A call** presses its key or is refused. -/
theorem Session.call_eq (s : Session) (c : Call) : s.call c = c.key.map s.press := by
  cases c with
  | press label =>
    rw [call, pressLabel, Call.key]
    cases Key.ofLabel? label <;> rfl
  | digit text =>
    rw [call, Call.key]
    cases NumberKey.ofLabel? text with
    | none => rfl
    | some key => cases hdigit : key.isDigit <;> simp [hdigit] <;> rfl
  | number text =>
    rw [call, Expression.enterNumberText, Call.key]
    cases NumberKey.ofLabel? text <;> rfl
  | operator text =>
    rw [call, Expression.enterOperatorText, Call.key]
    cases Operator.ofSymbol? text <;> rfl
  | point => rfl
  | equals => rfl
  | clear => rfl

/-! ### Objects -/

/-- The mutable state of an expression. -/
structure StateObject where
  tokens : Nat
  awaitingReset : Bool

/-- What builds an expression and has it evaluated. -/
structure BuilderObject where
  settings : Settings
  state : Nat
  /-- The settings of the evaluator. -/
  evaluator : Settings

/-- A session. -/
structure SessionObject where
  settings : Settings
  builder : Nat
  lastOutcome : Option Outcome

/-- All objects of a program, the lists of tokens included. -/
structure Memory where
  lists : List (List String)
  states : List StateObject
  builders : List BuilderObject
  sessions : List SessionObject

namespace Memory

/-- The memory before the first session. -/
def empty : Memory := ⟨[], [], [], []⟩

/-- The memory with a new list, and its reference. -/
def newList (m : Memory) (tokens : List String) : Memory × Nat :=
  ({ m with lists := m.lists ++ [tokens] }, m.lists.length)

/-- Changes a list in place. -/
def writeList (m : Memory) (list : Nat) (tokens : List String) : Memory :=
  { m with lists := m.lists.set list tokens }

/-- Changes the list of tokens of a state in place. -/
def changeTokens (m : Memory) (state : Nat) (f : List String → List String) : Option Memory := do
  let object ← m.states[state]?
  let tokens ← m.lists[object.tokens]?
  return m.writeList object.tokens (f tokens)

/-- Assigns tokens to a state: they are copied to a new list. -/
def assignTokens (m : Memory) (state : Nat) (tokens : List String) : Option Memory := do
  let object ← m.states[state]?
  let (m, list) := m.newList tokens
  return { m with states := m.states.set state { object with tokens := list } }

/-- Assigns to a state whether the next number key starts over. -/
def assignAwaitingReset (m : Memory) (state : Nat) (awaiting : Bool) : Option Memory := do
  let object ← m.states[state]?
  return { m with states := m.states.set state { object with awaitingReset := awaiting } }

/-- Assigns the outcome of the latest evaluation to a session. -/
def assignLastOutcome (m : Memory) (session : Nat) (outcome : Option Outcome) : Option Memory := do
  let object ← m.sessions[session]?
  return { m with sessions := m.sessions.set session { object with lastOutcome := outcome } }

/-- Assigns tokens, and whether the next number key starts over. -/
def assignExpression (m : Memory) (state : Nat) (tokens : List String) (awaiting : Bool) :
    Option Memory := do
  let m ← m.assignTokens state tokens
  m.assignAwaitingReset state awaiting

/-- Copies the tokens that an evaluation takes, without an operator at the end. -/
def copyOperands (m : Memory) (tokens : List String) : Memory × Nat :=
  let (m, copy) := m.newList tokens
  (if tokens.getLast?.any Token.isOperator then m.writeList copy tokens.dropLast else m, copy)

/-- Makes a session with a builder, a state and a list of its own. -/
def create (m : Memory) (settings : Settings) : Memory :=
  let (m, list) := m.newList []
  { m with
    states := m.states ++ [⟨list, false⟩]
    builders := m.builders ++ [⟨settings, m.states.length, settings⟩]
    sessions := m.sessions ++ [⟨settings, m.builders.length, none⟩] }

/-! ### Builders -/

/-- The expression that a builder holds. -/
def expression (m : Memory) (builder : Nat) : Option Expression := do
  let object ← m.builders[builder]?
  let state ← m.states[object.state]?
  let tokens ← m.lists[state.tokens]?
  return ⟨tokens, state.awaitingReset⟩

/-- The text that a builder displays. -/
def render (m : Memory) (builder : Nat) : Option String := do
  let object ← m.builders[builder]?
  let e ← m.expression builder
  return e.display object.settings

/-- Empties the expression of a builder. -/
def clear (m : Memory) (builder : Nat) : Option Memory := do
  let object ← m.builders[builder]?
  m.assignExpression object.state [] false

/-- Types a character into the list of tokens, which is a new one after an evaluation. -/
def enterNumber (m : Memory) (builder : Nat) (key : NumberKey) : Option Memory := do
  let object ← m.builders[builder]?
  let state ← m.states[object.state]?
  let m ← if state.awaitingReset then m.assignExpression object.state [] false else some m
  m.changeTokens object.state (Expression.typeChar · key)

/-- Adds an operator to the list of tokens. -/
def enterOperator (m : Memory) (builder : Nat) (op : Operator) : Option Memory := do
  let object ← m.builders[builder]?
  let e ← m.expression builder
  match Expression.openNumber? e.tokens with
  | none => return m
  | some _ =>
    let m ← m.assignAwaitingReset object.state false
    m.changeTokens object.state (· ++ [op.symbol])

/-- Evaluates a copy of the tokens and assigns the text of the outcome. -/
def evaluate (m : Memory) (builder : Nat) : Option (Memory × Option Outcome) := do
  let object ← m.builders[builder]?
  let e ← m.expression builder
  if e.tokens.isEmpty then return (m, none)
  let (m, copy) := m.copyOperands e.tokens
  let operands ← m.lists[copy]?
  let outcome := Outcome.ofTokens object.evaluator operands
  let m ← m.assignExpression object.state [outcome.display object.settings] true
  return (m, some outcome)

/-! ### Sessions -/

/-- Presses a key of a session. -/
def press (m : Memory) (session : Nat) (key : Key) : Option Memory := do
  let object ← m.sessions[session]?
  match key with
  | .number key => m.enterNumber object.builder key
  | .operator op => m.enterOperator object.builder op
  | .equals =>
    let (m, outcome) ← m.evaluate object.builder
    match outcome with
    | none => return m
    | some outcome => m.assignLastOutcome session (some outcome)
  | .clear =>
    let m ← m.assignLastOutcome session none
    m.clear object.builder

/-- The text that a session displays. -/
def display (m : Memory) (session : Nat) : Option String := do
  let object ← m.sessions[session]?
  m.render object.builder

/-- Calls a session: it displays a text or refuses the call. -/
def call (m : Memory) (session : Nat) (c : Call) : Option (Memory × Except KeyRefusal String) :=
  match c.key with
  | .error refusal => some (m, .error refusal)
  | .ok key => do
    let m ← m.press session key
    let shown ← m.display session
    return (m, .ok shown)

end Memory

/-- What can be seen of a session. -/
structure View where
  display : String
  tokens : List String
  awaitingReset : Bool
  lastOutcome : Option Outcome

/-- What can be seen of a session that is an object. -/
def Memory.view (m : Memory) (session : Nat) : Option View := do
  let object ← m.sessions[session]?
  let e ← m.expression object.builder
  let shown ← m.display session
  return ⟨shown, e.tokens, e.awaitingReset, object.lastOutcome⟩

/-- What can be seen of a session that is a value. -/
def Session.view (s : Session) : View :=
  ⟨s.display, s.expression.tokens, s.expression.awaitingReset, s.lastOutcome⟩

/-- What a call returns: the display, or why it is refused. -/
def Reaction.returned (r : Reaction) : Except KeyRefusal String :=
  r.refusal.elim (.ok r.session.display) .error

/-! ### Objects of a session -/

/-- Where the objects of a session are that it never exchanges. -/
structure Places where
  builder : Nat
  state : Nat

namespace Memory

variable {m m' m'' : Memory} {i j l l' l'' : Nat} {p q : Places} {s t u : Session}

/-- **The objects of a session**: those reached from a reference are those of the value, and its
tokens are in a list. -/
structure Represents (m : Memory) (i : Nat) (p : Places) (l : Nat) (s : Session) : Prop where
  session : m.sessions[i]? = some ⟨s.settings, p.builder, s.lastOutcome⟩
  builder : m.builders[p.builder]? = some ⟨s.settings, p.state, s.settings⟩
  state : m.states[p.state]? = some ⟨l, s.expression.awaitingReset⟩
  tokens : m.lists[l]? = some s.expression.tokens

/-- **What one session may change**: its own fields, its state, and its list of tokens, which it may
exchange for a new one.  Other lists may be added. -/
structure Advances (m : Memory) (i : Nat) (p : Places) (l : Nat) (m' : Memory) (l' : Nat) :
    Prop where
  sessions : ∀ j ≠ i, m'.sessions[j]? = m.sessions[j]?
  count : m'.sessions.length = m.sessions.length
  builders : m'.builders = m.builders
  states : ∀ r ≠ p.state, m'.states[r]? = m.states[r]?
  lists : ∀ k < m.lists.length, k ≠ l → m'.lists[k]? = m.lists[k]?
  grown : m.lists.length ≤ m'.lists.length
  list : l' = l ∨ m.lists.length ≤ l'

/-- Two sessions share neither a state nor a list of tokens. -/
structure Apart (p : Places) (l : Nat) (q : Places) (k : Nat) : Prop where
  state : q.state ≠ p.state
  list : k ≠ l

theorem Advances.refl (m : Memory) (i : Nat) (p : Places) (l : Nat) : Advances m i p l m l :=
  ⟨fun _ _ => rfl, rfl, rfl, fun _ _ => rfl, fun _ _ _ => rfl, Nat.le_refl _, Or.inl rfl⟩

theorem Advances.trans (h : Advances m i p l m' l') (h' : Advances m' i p l' m'' l'') :
    Advances m i p l m'' l'' where
  sessions j hj := (h'.sessions j hj).trans (h.sessions j hj)
  count := h'.count.trans h.count
  builders := h'.builders.trans h.builders
  states r hr := (h'.states r hr).trans (h.states r hr)
  lists k hk hne := by
    have hne' : k ≠ l' := by
      rcases h.list with rfl | hnew
      · exact hne
      · omega
    have hk' : k < m'.lists.length := Nat.lt_of_lt_of_le hk h.grown
    exact (h'.lists k hk' hne').trans (h.lists k hk hne)
  grown := Nat.le_trans h.grown h'.grown
  list := by
    have := h.grown
    rcases h'.list with rfl | hnew
    · exact h.list
    · exact Or.inr (by omega)

/-- **The objects of a session that shares nothing** stay, and still nothing is shared. -/
theorem Represents.other {k : Nat} (h : m.Represents j q k t) (hadv : Advances m i p l m' l')
    (hne : j ≠ i) (hapart : Apart p l q k) : m'.Represents j q k t ∧ Apart p l' q k := by
  have hk : k < m.lists.length := (List.getElem?_eq_some_iff.mp h.tokens).1
  refine ⟨⟨?_, ?_, ?_, ?_⟩, hapart.state, ?_⟩
  · rw [hadv.sessions j hne]
    exact h.session
  · rw [hadv.builders]
    exact h.builder
  · rw [hadv.states q.state hapart.state]
    exact h.state
  · rw [hadv.lists k hk hapart.list]
    exact h.tokens
  · rcases hadv.list with rfl | hnew
    · exact hapart.list
    · omega

/-! ### Steps of one session -/

/-- **A step of a session** succeeds, its objects become those of a session value, and nothing else
has changed. -/
def Becomes (m : Memory) (i : Nat) (p : Places) (l : Nat) (result : Option Memory) (s : Session) :
    Prop :=
  ∃ m' l', result = some m' ∧ Advances m i p l m' l' ∧ m'.Represents i p l' s

theorem Becomes.refl (h : m.Represents i p l s) : m.Becomes i p l (some m) s :=
  ⟨m, l, rfl, .refl m i p l, h⟩

theorem Becomes.bind {result : Option Memory} {f : Memory → Option Memory}
    (h : m.Becomes i p l result s)
    (hf : ∀ (m' : Memory) l', m'.Represents i p l' s → m'.Becomes i p l' (f m') t) :
    m.Becomes i p l (result >>= f) t := by
  obtain ⟨m', l', rfl, hadv, hrep⟩ := h
  obtain ⟨m'', l'', hm'', hadv', hrep'⟩ := hf m' l' hrep
  exact ⟨m'', l'', hm'', hadv.trans hadv', hrep'⟩

section Steps

variable (h : m.Represents i p l s)
include h

theorem Represents.list_lt : l < m.lists.length := (List.getElem?_eq_some_iff.mp h.tokens).1

theorem Represents.changeTokens (f : List String → List String) :
    m.Becomes i p l (m.changeTokens p.state f)
      (s.withExpression ⟨f s.expression.tokens, s.expression.awaitingReset⟩) := by
  unfold Memory.changeTokens
  rw [h.state, Option.bind_eq_bind, Option.bind_some, h.tokens]
  exact ⟨_, l, rfl, { Advances.refl m i p l with
    lists := fun k _ hne => List.getElem?_set_ne (Ne.symm hne)
    grown := by simp [Memory.writeList] },
    { h with tokens := List.getElem?_set_self h.list_lt }⟩

theorem Represents.assignTokens (tokens : List String) :
    m.Becomes i p l (m.assignTokens p.state tokens)
      (s.withExpression ⟨tokens, s.expression.awaitingReset⟩) := by
  have hstate : p.state < m.states.length := (List.getElem?_eq_some_iff.mp h.state).1
  unfold Memory.assignTokens
  rw [h.state]
  refine ⟨_, m.lists.length, rfl, {
    sessions := fun _ _ => rfl
    count := rfl
    builders := rfl
    states := fun r hr => List.getElem?_set_ne (Ne.symm hr)
    lists := fun k hk _ => List.getElem?_append_left hk
    grown := by simp
    list := Or.inr (Nat.le_refl _) }, {
    session := h.session
    builder := h.builder
    state := List.getElem?_set_self hstate
    tokens := ?_ }⟩
  exact List.getElem?_concat_length

theorem Represents.assignAwaitingReset (awaiting : Bool) :
    m.Becomes i p l (m.assignAwaitingReset p.state awaiting)
      (s.withExpression ⟨s.expression.tokens, awaiting⟩) := by
  have hstate : p.state < m.states.length := (List.getElem?_eq_some_iff.mp h.state).1
  unfold Memory.assignAwaitingReset
  rw [h.state]
  exact ⟨_, l, rfl, { Advances.refl m i p l with
    states := fun r hr => List.getElem?_set_ne (Ne.symm hr) },
    { h with state := List.getElem?_set_self hstate }⟩

theorem Represents.assignLastOutcome (outcome : Option Outcome) :
    m.Becomes i p l (m.assignLastOutcome i outcome) { s with lastOutcome := outcome } := by
  have hsession : i < m.sessions.length := (List.getElem?_eq_some_iff.mp h.session).1
  unfold Memory.assignLastOutcome
  rw [h.session]
  exact ⟨_, l, rfl, { Advances.refl m i p l with
    sessions := fun j hj => List.getElem?_set_ne (Ne.symm hj)
    count := List.length_set },
    { h with session := List.getElem?_set_self hsession }⟩

theorem Represents.assignExpression (tokens : List String) (awaiting : Bool) :
    m.Becomes i p l (m.assignExpression p.state tokens awaiting)
      (s.withExpression ⟨tokens, awaiting⟩) :=
  (h.assignTokens tokens).bind fun _ _ h' => h'.assignAwaitingReset awaiting

/-- The copied tokens are not reached from the session. -/
theorem Represents.copyOperands (tokens : List String) :
    ∃ m' copy, m.copyOperands tokens = (m', copy) ∧
      m'.lists[copy]? = some (Expression.operandTokens tokens) ∧
      Advances m i p l m' l ∧ m'.Represents i p l s := by
  have hlt := h.list_lt
  unfold Memory.copyOperands Expression.operandTokens
  dsimp only [Memory.newList]
  split
  · have hread : ∀ k < m.lists.length, ((m.lists ++ [tokens]).set m.lists.length
        tokens.dropLast)[k]? = m.lists[k]? := fun k hk => by
      rw [List.getElem?_set_ne (Nat.ne_of_gt hk), List.getElem?_append_left hk]
    exact ⟨_, _, rfl, List.getElem?_set_self (by simp),
      { Advances.refl m i p l with
        lists := fun k hk _ => hread k hk
        grown := by simp [Memory.writeList] },
      { h with tokens := (hread l hlt).trans h.tokens }⟩
  · exact ⟨_, _, rfl, List.getElem?_concat_length,
      { Advances.refl m i p l with
        lists := fun k hk _ => List.getElem?_append_left hk
        grown := by simp },
      { h with tokens := (List.getElem?_append_left hlt).trans h.tokens }⟩

theorem Represents.expression_eq : m.expression p.builder = some s.expression := by
  simp [Memory.expression, h.builder, h.state, h.tokens]

theorem Represents.display_eq : m.display i = some s.display := by
  simp [Memory.display, Memory.render, h.session, h.builder, h.expression_eq, Session.display]

theorem Represents.view_eq : m.view i = some s.view := by
  simp [Memory.view, h.session, h.expression_eq, h.display_eq, Session.view]

/-! ### Keys -/

theorem Represents.enterNumber (key : NumberKey) :
    m.Becomes i p l (m.enterNumber p.builder key) (s.enterNumber key) := by
  unfold Memory.enterNumber Session.enterNumber Expression.enterNumber
  simp only [h.builder, h.state, Option.bind_eq_bind, Option.bind_some]
  cases hwait : s.expression.awaitingReset with
  | true =>
    exact (h.assignExpression [] false).bind fun _ _ h' =>
      h'.changeTokens (Expression.typeChar · key)
  | false =>
    have htyped := h.changeTokens (Expression.typeChar · key)
    rw [hwait] at htyped
    exact htyped

theorem Represents.enterOperator (op : Operator) :
    m.Becomes i p l (m.enterOperator p.builder op) (s.enterOperator op) := by
  unfold Memory.enterOperator Session.enterOperator Expression.enterOperator
  simp only [h.builder, h.expression_eq, Option.bind_eq_bind, Option.bind_some]
  cases Expression.openNumber? s.expression.tokens with
  | none => exact .refl h
  | some _ =>
    exact (h.assignAwaitingReset false).bind fun _ _ h' => h'.changeTokens (· ++ [op.symbol])

/-- `=` without an expression. -/
theorem Represents.evaluate_of_nil (hnil : s.expression.tokens = []) :
    m.evaluate p.builder = some (m, none) := by
  unfold Memory.evaluate
  simp [h.builder, h.expression_eq, hnil]

/-- **An evaluation** leaves the text of the outcome. -/
theorem Represents.evaluate (hne : s.expression.tokens ≠ []) :
    let outcome := Outcome.ofTokens s.settings (Expression.operandTokens s.expression.tokens)
    ∃ m' l', m.evaluate p.builder = some (m', some outcome) ∧ Advances m i p l m' l' ∧
      m'.Represents i p l' (s.withExpression ⟨[outcome.display s.settings], true⟩) := by
  intro outcome
  obtain ⟨m₁, copy, hcopy, hoperands, hadv, hrep⟩ := h.copyOperands s.expression.tokens
  obtain ⟨m', l', hassign, hadv', hrep'⟩ :=
    hrep.assignExpression [outcome.display s.settings] true
  refine ⟨m', l', ?_, hadv.trans hadv', hrep'⟩
  unfold Memory.evaluate
  simp [h.builder, h.expression_eq, hne, hcopy, hoperands, hassign, outcome]

theorem Represents.press_equals :
    m.Becomes i p l (m.press i .equals) s.equals.1 := by
  unfold Memory.press
  simp only [h.session, Option.bind_eq_bind, Option.bind_some]
  by_cases hnil : s.expression.tokens = []
  · rw [h.evaluate_of_nil hnil, Session.equals_of_nil hnil]
    exact .refl h
  · obtain ⟨m₁, l₁, heval, hadv, hrep⟩ := h.evaluate hnil
    obtain ⟨m', l', hassign, hadv', hrep'⟩ := hrep.assignLastOutcome
      (some (Outcome.ofTokens s.settings (Expression.operandTokens s.expression.tokens)))
    rw [heval, Session.equals_eq hnil]
    exact ⟨m', l', hassign, hadv.trans hadv', hrep'⟩

/-- **A key** changes the objects of the session as it changes the value. -/
theorem Represents.press (key : Key) : m.Becomes i p l (m.press i key) (s.press key).1 := by
  cases key with
  | equals => exact h.press_equals
  | number key =>
    unfold Memory.press
    rw [h.session]
    exact h.enterNumber key
  | operator op =>
    unfold Memory.press
    rw [h.session]
    exact h.enterOperator op
  | clear =>
    unfold Memory.press
    rw [h.session]
    refine (h.assignLastOutcome none).bind fun m' l' h' => ?_
    unfold Memory.clear
    rw [h'.builder]
    exact h'.assignExpression [] false

/-- **A call** of a session that is an object reacts as the value does: it displays a text or is
refused, shows the same afterwards, and changes nothing else. -/
theorem Represents.call (c : Call) :
    ∃ m' l', m.call i c = some (m', (s.react c).returned) ∧
      m'.view i = some (s.react c).session.view ∧ Advances m i p l m' l' ∧
      m'.Represents i p l' (s.react c).session := by
  have hcall := s.call_eq c
  unfold Memory.call Session.react
  cases hkey : c.key with
  | error refusal =>
    rw [hkey] at hcall
    rw [hcall]
    exact ⟨m, l, rfl, h.view_eq, .refl m i p l, h⟩
  | ok key =>
    rw [hkey] at hcall
    rw [hcall]
    obtain ⟨m', l', hpress, hadv, hrep⟩ := h.press key
    refine ⟨m', l', ?_, hrep.view_eq, hadv, hrep⟩
    simp only [hpress, hrep.display_eq, Option.bind_eq_bind, Option.bind_some]
    rfl

end Steps

end Memory
end Keypad
