import Keypad.Evaluation

/-! # Chains of operands

A chain `x₀ o₁ x₁ … oₙ xₙ` is a first operand with links, each an operator and the operand after it.
How operands and operators are written is left open (`write`), since an evaluation is followed both
on the tokens of a chain and on what they mean.  The tokens of a chain determine it
(`write_injective`).

An infix expression is a list of tokens of odd length with numbers at the even positions and
operators at the odd ones.  These are the tokens of the chains of numbers (`exists_chain`). -/

namespace Keypad

theorem Operator.symbol_injective {op op' : Operator} (h : op.symbol = op'.symbol) : op = op' := by
  have hs := Operator.ofSymbol?_symbol op
  rw [h, Operator.ofSymbol?_symbol] at hs
  exact (Option.some.inj hs).symm

/-- Operands joined by operators. -/
structure Chain (α : Type) where
  first : α
  /-- The operators from left to right, each with the operand after it. -/
  links : List (Operator × α)

namespace Chain

variable {α τ : Type}

/-- The operands from left to right, each with the operator before it. -/
def operands (c : Chain α) : List (Option Operator × α) :=
  (none, c.first) :: c.links.map fun (op, x) => (some op, x)

/-- Links written with the given texts of operators and operands. -/
def writeLinks (sym : Operator → τ) (txt : α → τ) (links : List (Operator × α)) : List τ :=
  links.flatMap fun (op, x) => [sym op, txt x]

/-- A chain written with the given texts of operators and operands. -/
def write (sym : Operator → τ) (txt : α → τ) (c : Chain α) : List τ :=
  txt c.first :: writeLinks sym txt c.links

/-- The tokens of a chain of texts. -/
def tokens (c : Chain String) : List String := c.write Operator.symbol id

variable {sym : Operator → τ} {txt : α → τ}

@[simp] theorem writeLinks_nil : writeLinks sym txt [] = [] := rfl

@[simp] theorem writeLinks_cons (op : Operator) (x : α) (links : List (Operator × α)) :
    writeLinks sym txt ((op, x) :: links) = sym op :: txt x :: writeLinks sym txt links := rfl

@[simp] theorem writeLinks_append (l l' : List (Operator × α)) :
    writeLinks sym txt (l ++ l') = writeLinks sym txt l ++ writeLinks sym txt l' := by
  simp [writeLinks]

theorem tokens_concat (x : String) (links : List (Operator × String)) (op : Operator) (y : String) :
    tokens ⟨x, links ++ [(op, y)]⟩ = tokens ⟨x, links⟩ ++ [op.symbol] ++ [y] := by
  simp [tokens, write]

theorem writeLinks_injective (hs : ∀ {op op'}, sym op = sym op' → op = op')
    (ht : ∀ {x x'}, txt x = txt x' → x = x') : ∀ {l l' : List (Operator × α)},
      writeLinks sym txt l = writeLinks sym txt l' → l = l'
  | [], [], _ => rfl
  | [], _ :: _, h => by cases h
  | _ :: _, [], h => by cases h
  | (op, x) :: l, (op', x') :: l', h => by
    simp only [writeLinks_cons, List.cons.injEq] at h
    obtain ⟨ho, hx, hl⟩ := h
    rw [hs ho, ht hx, writeLinks_injective hs ht hl]

theorem write_injective (hs : ∀ {op op'}, sym op = sym op' → op = op')
    (ht : ∀ {x x'}, txt x = txt x' → x = x') {c c' : Chain α}
    (h : c.write sym txt = c'.write sym txt) : c = c' := by
  obtain ⟨x, l⟩ := c
  obtain ⟨x', l'⟩ := c'
  simp only [write, List.cons.injEq] at h
  rw [ht h.1, writeLinks_injective hs ht h.2]

/-- The operator and the operand of a link are neighbours. -/
theorem mem_zip_write {op : Operator} {x : α} : ∀ {y : α} {links : List (Operator × α)},
    (op, x) ∈ links → (sym op, txt x) ∈
      (write sym txt ⟨y, links⟩).zip (write sym txt ⟨y, links⟩).tail
  | y, (op', x') :: links, h => by
    rcases List.mem_cons.mp h with heq | hmem
    · cases heq
      exact List.mem_cons_of_mem _ List.mem_cons_self
    · exact List.mem_cons_of_mem _ (List.mem_cons_of_mem _ (mem_zip_write hmem))

theorem getLast?_write : ∀ (x : α) (links : List (Operator × α)),
    ∃ p ∈ operands ⟨x, links⟩, (write sym txt ⟨x, links⟩).getLast? = some (txt p.2)
  | x, [] => ⟨(none, x), by simp [operands], rfl⟩
  | x, (op, y) :: links => by
    obtain ⟨p, hp, hl⟩ := getLast?_write y links
    simp only [write, writeLinks_cons] at hl ⊢
    rw [List.getLast?_cons_cons, List.getLast?_cons_cons, hl]
    rcases List.mem_cons.mp hp with rfl | hp
    · exact ⟨(some op, y), by simp [operands], rfl⟩
    · exact ⟨p, List.mem_cons_of_mem _ (List.mem_cons_of_mem _ hp), rfl⟩

/-- A chain whose operands are no operators does not begin or end with an operator. -/
theorem hasDanglingOperator_write {txt : α → String} {c : Chain α}
    (h : ∀ p ∈ c.operands, Token.isOperator (txt p.2) = false) :
    hasDanglingOperator (c.write Operator.symbol txt) = false := by
  obtain ⟨p, hp, hl⟩ : ∃ p ∈ c.operands, (c.write Operator.symbol txt).getLast? = some (txt p.2) :=
    getLast?_write c.first c.links
  refine hasDanglingOperator_eq_false_iff.mpr ⟨?_, ?_⟩
  · rintro t ⟨⟩
    exact h (none, c.first) List.mem_cons_self
  · rw [hl]
    rintro t ⟨⟩
    exact h p hp

end Chain

/-! ## Infix expressions -/

/-- A list of odd length with numbers at the even positions and operators at the odd ones. -/
def IsInfixExpression (tokens : List String) : Prop :=
  tokens.length % 2 = 1 ∧ ∀ i (h : i < tokens.length),
    if i % 2 = 0 then Token.isNumber tokens[i] = true else Token.isOperator tokens[i] = true

instance (tokens : List String) : Decidable (IsInfixExpression tokens) :=
  inferInstanceAs (Decidable (_ ∧ _))

namespace IsInfixExpression

theorem not_nil : ¬ IsInfixExpression [] := by
  rintro ⟨h, -⟩
  cases h

theorem head {x : String} {ts : List String} (h : IsInfixExpression (x :: ts)) :
    Token.isNumber x = true := h.2 0 (by simp)

theorem second {x o : String} {ts : List String} (h : IsInfixExpression (x :: o :: ts)) :
    Token.isOperator o = true := h.2 1 (by simp)

theorem tail {x o : String} {ts : List String} (h : IsInfixExpression (x :: o :: ts)) :
    IsInfixExpression ts := by
  obtain ⟨hl, hi⟩ := h
  refine ⟨by simp only [List.length_cons] at hl; omega, fun i hlt => ?_⟩
  have := hi (i + 2) (by simp only [List.length_cons]; omega)
  rwa [Nat.add_mod_right] at this

/-- **An infix expression is written by a chain of numbers.** -/
theorem exists_chain : ∀ {tokens : List String}, IsInfixExpression tokens →
    ∃ c : Chain Numeric, c.write Operator.symbol Subtype.val = tokens
  | [], h => absurd h not_nil
  | [x], h => ⟨⟨⟨x, h.head⟩, []⟩, rfl⟩
  | x :: o :: ts, h => by
    obtain ⟨op, rfl⟩ := Token.isOperator_iff.mp h.second
    obtain ⟨c, hc⟩ := exists_chain h.tail
    exact ⟨⟨⟨x, h.head⟩, (op, c.first) :: c.links⟩, congrArg (x :: op.symbol :: ·) hc⟩

end IsInfixExpression

end Keypad
