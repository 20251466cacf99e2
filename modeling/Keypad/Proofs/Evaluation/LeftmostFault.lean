import Keypad.Outcome
import Keypad.Proofs.Binary64.Divisor
import Keypad.Proofs.Evaluation.Stacks

/-! # The leftmost fault

A chain of operands `x₀ o₁ x₁ … oₙ xₙ`, numbers or not, fails at its leftmost operand that is no
number or a refused divisor (`outcome_leftmost`).  A division is performed only when the next
operator arrives or the chain ends, but that is before the next operand is read: no division waits
between two links (`Balanced`), and one that is read with its divisor is settled at once. -/

namespace Keypad

open Stacks Chain

/-- Whether an operand, given with the operator before it, is no number or a refused divisor. -/
def IsOffending (settings : Settings) (p : Option Operator × String) : Prop :=
  Token.isNumber p.2 = false ∨ p.1 = some .div ∧
    ∃ x ∈ Token.number? p.2, IsRefusedDivisor settings.zeroTolerance x

instance (settings : Settings) (p : Option Operator × String) :
    Decidable (IsOffending settings p) :=
  inferInstanceAs (Decidable (_ ∨ _))

/-- The fault of an offending operand. -/
def operandFault (s : String) : Fault :=
  if Token.isNumber s then .divisionByZero
  else if Token.looksNumeric s then .malformedNumber s
  else .invalidOperator s

namespace LeftmostFault

variable {settings : Settings} {op : Operator} {y : String}

theorem ofText_of_not_isNumber (h : Token.isNumber y = false) (ho : Token.isOperator y = false) :
    Token.ofText y = .error (operandFault y) := by
  have hn : Token.number? y = none := by simpa [Token.isNumber] using h
  rw [Token.ofText_of_number?_eq_none hn ho]
  simp [operandFault, h]

/-- An operand that does not offend is a number, and no refused divisor. -/
theorem not_isOffending {before : Option Operator} (h : ¬ IsOffending settings (before, y)) :
    ∃ x, Token.number? y = some x ∧
      (before = some .div → Operator.isZeroDivisor settings.zeroTolerance x = false) := by
  obtain ⟨hn, hd⟩ := not_or.mp h
  obtain ⟨x, hx⟩ := Option.isSome_iff_exists.mp (Bool.not_eq_false _ ▸ hn)
  refine ⟨x, hx, fun hdiv => ?_⟩
  rw [← Bool.not_eq_true, Operator.isZeroDivisor_iff]
  exact fun hr => hd ⟨hdiv, x, hx, hr⟩

/-! ### Between two links -/

/-- The stacks between two links: one operand more than operators, and no division waits. -/
structure Balanced (s : Stacks Binary64) : Prop where
  length : s.operands.length = s.operators.length + 1
  noDiv : Operator.div ∉ s.operators

theorem balanced_singleton (x : Binary64) : Balanced ⟨[x], []⟩ := ⟨rfl, by simp⟩

/-- A fold succeeds when no division waits. -/
theorem Balanced.fold {s : Stacks Binary64} (h : Balanced s) (tolerance : Binary64) (level : Nat) :
    ∃ a xs ops, fold (Operator.apply tolerance) level s.operands s.operators = .ok ⟨a :: xs, ops⟩ ∧
      Balanced ⟨a :: xs, ops⟩ := by
  have hlen := h.length
  have happly : ∀ op ∈ s.operators, ∀ a b f, Operator.apply tolerance op a b = .error f →
      False := by
    intro op hop a b f hf
    obtain ⟨rfl, -⟩ := Operator.eq_of_apply_eq_error hf
    exact h.noDiv hop
  have hlt : s.operators.length < s.operands.length + (kept level s.operators).length := by omega
  rcases fold_total happly hlt with ⟨⟨xs, ops⟩, hf⟩ | ⟨_, _, hfalse⟩
  · obtain ⟨rfl, hlen', -⟩ := fold_ok hf
    have hb : Balanced ⟨xs, kept level s.operators⟩ :=
      ⟨by simp only at hlen' ⊢; omega, fun hd => h.noDiv ((kept_suffix _ _).subset hd)⟩
    cases xs with
    | nil => cases hb.length
    | cons a xs => exact ⟨a, xs, _, hf, hb⟩
  · exact hfalse.elim

/-- The value of a chain from stacks that hold what is before the given links. -/
def runLinks (settings : Settings) (s : Stacks Binary64) (links : List (Operator × String)) :
    Except Fault Binary64 :=
  runFrom Token.ofText (Operator.apply settings.zeroTolerance) s
    (writeLinks Operator.symbol id links)

/-- What follows an operand is an operator, and none binds more tightly than a quotient. -/
theorem nextWithin_links (links : List (Operator × String)) :
    NextWithin Token.ofText 2 (writeLinks Operator.symbol id links) := by
  have hend : NextWithin Token.ofText 2 [] := nofun
  rw [← List.append_nil (writeLinks Operator.symbol id links)]
  refine nextWithin_writeLinks Token.ofText_symbol (fun p _ => ?_) hend
  have := p.1.precedence_eq_one_or_two
  omega

/-- An operator that is no division is stacked with its operand. -/
theorem runLinks_number {s : Stacks Binary64} {a x : Binary64} {xs : List Binary64}
    {ops : List Operator} {links : List (Operator × String)} (hx : Token.number? y = some x)
    (hf : fold (Operator.apply settings.zeroTolerance) op.precedence s.operands s.operators =
      .ok ⟨a :: xs, ops⟩) :
    runLinks settings s ((op, y) :: links) =
      runLinks settings ⟨x :: a :: xs, op :: ops⟩ links := by
  simp only [runLinks, writeLinks_cons, id_eq]
  rw [runFrom_operator (Token.ofText_symbol op), hf, ok_bind]
  rw [runFrom_number (Token.ofText_of_number? hx)]

/-- A division is performed before anything else is read. -/
theorem runLinks_div {a x : Binary64} {xs : List Binary64} {ops : List Operator}
    (links : List (Operator × String)) :
    runLinks settings ⟨x :: a :: xs, .div :: ops⟩ links =
      Operator.apply settings.zeroTolerance .div a x >>= fun c =>
        runLinks settings ⟨c :: xs, ops⟩ links :=
  runFrom_settle (nextWithin_links links)

/-- A link that does not offend leaves the stacks balanced. -/
theorem Balanced.link {s : Stacks Binary64} (h : Balanced s)
    (hn : ¬ IsOffending settings (some op, y)) : ∃ s', Balanced s' ∧
      ∀ links, runLinks settings s ((op, y) :: links) = runLinks settings s' links := by
  obtain ⟨x, hx, hdiv⟩ := not_isOffending hn
  obtain ⟨a, xs, ops, hf, hb⟩ := h.fold settings.zeroTolerance op.precedence
  obtain ⟨hlen, hno⟩ := hb
  by_cases hop : op = .div
  · subst hop
    refine ⟨⟨Operator.div.compute a x :: xs, ops⟩, ⟨hlen, hno⟩, fun links => ?_⟩
    rw [runLinks_number hx hf, runLinks_div, Operator.apply_eq_ok fun _ => hdiv rfl, ok_bind]
  · refine ⟨⟨x :: a :: xs, op :: ops⟩, ⟨by simpa using hlen, fun hmem => ?_⟩,
      fun links => runLinks_number hx hf⟩
    rcases List.mem_cons.mp hmem with heq | hmem
    · exact hop heq.symm
    · exact hno hmem

/-- A link that offends is the fault. -/
theorem Balanced.fault {s : Stacks Binary64} (h : Balanced s)
    (ho : Token.isOperator y = false) (hn : IsOffending settings (some op, y))
    (links : List (Operator × String)) :
    runLinks settings s ((op, y) :: links) = .error (operandFault y) := by
  obtain ⟨a, xs, ops, hf, -⟩ := h.fold settings.zeroTolerance op.precedence
  cases hnum : Token.isNumber y with
  | false =>
    simp only [runLinks, writeLinks_cons, id_eq]
    rw [runFrom_operator (Token.ofText_symbol op), hf, ok_bind]
    rw [runFrom_error (ofText_of_not_isNumber hnum ho)]
  | true =>
    rcases hn with hn | ⟨hop, x, hx, hr⟩
    · rw [hnum] at hn
      cases hn
    · obtain rfl := Option.some.inj hop
      rw [runLinks_number hx hf, runLinks_div,
        Operator.apply_div_eq_error (Operator.isZeroDivisor_iff.mpr hr), error_bind]
      simp [operandFault, hnum]

/-! ### Runs -/

/-- Links that do not offend leave the stacks balanced. -/
theorem Balanced.links : ∀ {before : List (Operator × String)} {s : Stacks Binary64}, Balanced s →
    (∀ p ∈ before, ¬ IsOffending settings (some p.1, p.2)) → ∃ s', Balanced s' ∧
      ∀ links, runLinks settings s (before ++ links) = runLinks settings s' links
  | [], s, h, _ => ⟨s, h, fun _ => rfl⟩
  | (op, y) :: before, s, h, hn => by
    obtain ⟨hy, hbefore⟩ := List.forall_mem_cons.mp hn
    obtain ⟨s₁, h₁, hrun₁⟩ := h.link hy
    obtain ⟨s₂, h₂, hrun₂⟩ := h₁.links hbefore
    exact ⟨s₂, h₂, fun links => (hrun₁ _).trans (hrun₂ links)⟩

/-- Balanced stacks give a value. -/
theorem Balanced.finish {s : Stacks Binary64} (h : Balanced s) :
    ∃ x, runLinks settings s [] = .ok x := by
  obtain ⟨a, xs, ops, hf, hb⟩ := h.fold settings.zeroTolerance 0
  obtain ⟨hops, -, -⟩ := fold_ok hf
  obtain ⟨hlen, -⟩ := hb
  have hnil : ops = [] := hops.trans (kept_zero _)
  subst hnil
  obtain rfl : xs = [] := by simpa using hlen
  refine ⟨a, ?_⟩
  show Stacks.finish _ s = _
  unfold Stacks.finish
  rw [hf, ok_bind]

section Chains

variable {c : Chain String} (hc : ∀ p ∈ c.operands, Token.isOperator p.2 = false)
include hc

theorem evaluate_tokens : evaluate settings c.tokens =
    runFrom Token.ofText (Operator.apply settings.zeroTolerance) .empty c.tokens :=
  evaluate_eq_runFrom (List.cons_ne_nil _ _) (hasDanglingOperator_write hc)

theorem evaluate_of_first {x : Binary64} (hx : Token.number? c.first = some x) :
    evaluate settings c.tokens = runLinks settings ⟨[x], []⟩ c.links := by
  rw [evaluate_tokens hc]
  exact runFrom_number (Token.ofText_of_number? hx)

/-- A chain without an offending operand has a value. -/
theorem evaluate_of_forall_not_isOffending (hn : ∀ p ∈ c.operands, ¬ IsOffending settings p) :
    ∃ x, evaluate settings c.tokens = .ok x := by
  obtain ⟨hfirst, hlinks⟩ := List.forall_mem_cons.mp hn
  obtain ⟨x, hx, -⟩ := not_isOffending hfirst
  have hlinks : ∀ p ∈ c.links, ¬ IsOffending settings (some p.1, p.2) := fun p hp =>
    hlinks _ (List.mem_map_of_mem hp)
  obtain ⟨s, hs, hrun⟩ := (balanced_singleton x).links hlinks
  obtain ⟨v, hv⟩ := hs.finish
  refine ⟨v, ?_⟩
  have := hrun []
  rw [List.append_nil] at this
  rw [evaluate_of_first hc hx, this, hv]

/-- A chain with an offending operand fails with the fault of the leftmost one. -/
theorem evaluate_of_isOffending {before after : List (Option Operator × String)}
    {p : Option Operator × String} (hsplit : c.operands = before ++ p :: after)
    (hbefore : ∀ q ∈ before, ¬ IsOffending settings q) (hp : IsOffending settings p) :
    evaluate settings c.tokens = .error (operandFault p.2) := by
  have hop : Token.isOperator p.2 = false := hc p (by rw [hsplit]; simp)
  cases before with
  | nil =>
    obtain ⟨rfl, -⟩ := List.cons.inj hsplit
    rcases hp with hn | ⟨hnone, -⟩
    · rw [evaluate_tokens hc]
      exact runFrom_error (ofText_of_not_isNumber hn hop)
    · cases hnone
  | cons q before =>
    obtain ⟨rfl, hlinks⟩ := List.cons.inj hsplit
    obtain ⟨hfirst, hbefore⟩ := List.forall_mem_cons.mp hbefore
    obtain ⟨x, hx, -⟩ := not_isOffending hfirst
    obtain ⟨l, l', hl, rfl, hl'⟩ := List.map_eq_append_iff.mp hlinks
    obtain ⟨⟨op, y⟩, l'', rfl, rfl, -⟩ := List.map_eq_cons_iff.mp hl'
    have hl₁ : ∀ p ∈ l, ¬ IsOffending settings (some p.1, p.2) := fun p hp =>
      hbefore _ (List.mem_map_of_mem hp)
    obtain ⟨s, hs, hrun⟩ := (balanced_singleton x).links hl₁
    rw [evaluate_of_first hc hx, hl, hrun, hs.fault hop hp]

/-- A chain has a value, or the fault of one of its operands. -/
theorem evaluate_cases (settings : Settings) :
    (∀ p ∈ c.operands, ¬ IsOffending settings p) ∧ (∃ x, evaluate settings c.tokens = .ok x) ∨
      ∃ p ∈ c.operands, IsOffending settings p ∧
        evaluate settings c.tokens = .error (operandFault p.2) := by
  cases hfind : c.operands.find? (IsOffending settings ·) with
  | none =>
    have hn : ∀ p ∈ c.operands, ¬ IsOffending settings p := by simpa using hfind
    exact Or.inl ⟨hn, evaluate_of_forall_not_isOffending hc hn⟩
  | some p =>
    obtain ⟨hp, before, after, hsplit, hbefore⟩ := List.find?_eq_some_iff_append.mp hfind
    have hp : IsOffending settings p := by simpa using hp
    have hfault := evaluate_of_isOffending hc hsplit (by simpa using hbefore) hp
    exact Or.inr ⟨p, by rw [hsplit]; simp, hp, hfault⟩

end Chains

theorem ofTokens_of_operandFault {tokens : List String}
    (h : evaluate settings tokens = .error (operandFault y)) :
    Outcome.ofTokens settings tokens =
      if Token.isNumber y then
        .failure (Outcome.expressionText tokens) .divisionByZero "Cannot divide by zero"
      else if Token.looksNumeric y then
        .failure (Outcome.expressionText tokens) .malformedExpression
          ("Malformed number: " ++ Text.quoted y)
      else
        .failure (Outcome.expressionText tokens) .invalidOperator
          ("Invalid operator: " ++ Text.quoted y) := by
  rw [Outcome.ofTokens_of_error h]
  unfold operandFault
  split
  · rfl
  · split <;> rfl

end LeftmostFault

/-- **The leftmost offending operand decides.**  A chain whose operands are no operators succeeds
exactly if none of them is offending, and fails with the fault of the first that is.  Nothing else
goes wrong. -/
theorem outcome_leftmost {settings : Settings} {c : Chain String}
    (hc : ∀ p ∈ c.operands, Token.isOperator p.2 = false) :
    ((Outcome.ofTokens settings c.tokens).isSuccess = true ↔
      ∀ p ∈ c.operands, ¬ IsOffending settings p) ∧
    (∀ before p after, c.operands = before ++ p :: after →
      (∀ q ∈ before, ¬ IsOffending settings q) → IsOffending settings p →
        Outcome.ofTokens settings c.tokens =
          if Token.isNumber p.2 then
            .failure (Outcome.expressionText c.tokens) .divisionByZero "Cannot divide by zero"
          else if Token.looksNumeric p.2 then
            .failure (Outcome.expressionText c.tokens) .malformedExpression
              ("Malformed number: " ++ Text.quoted p.2)
          else
            .failure (Outcome.expressionText c.tokens) .invalidOperator
              ("Invalid operator: " ++ Text.quoted p.2)) ∧
    ∀ fault, evaluate settings c.tokens = .error fault →
      (∀ symbol, fault ≠ .missingOperand symbol) ∧ (∀ n, fault ≠ .leftoverOperands n) ∧
        ∀ ts, fault ≠ .danglingOperator ts := by
  refine ⟨⟨fun hs => ?_, fun hn => ?_⟩, fun before p after hsplit hbefore hp => ?_,
    fun fault hf => ?_⟩
  · rcases LeftmostFault.evaluate_cases hc settings with ⟨hn, -⟩ | ⟨p, -, -, hf⟩
    · exact hn
    · rw [Outcome.ofTokens_of_error hf] at hs
      cases hs
  · obtain ⟨x, hx⟩ := LeftmostFault.evaluate_of_forall_not_isOffending hc hn
    rw [Outcome.ofTokens_of_ok hx]
    rfl
  · exact LeftmostFault.ofTokens_of_operandFault
      (LeftmostFault.evaluate_of_isOffending hc hsplit hbefore hp)
  · rcases LeftmostFault.evaluate_cases hc settings with ⟨-, x, hx⟩ | ⟨p, -, -, hp⟩
    · rw [hx] at hf
      cases hf
    · rw [hp] at hf
      obtain rfl := Except.error.inj hf
      unfold operandFault
      split
      · simp
      · split <;> simp

/-- Of two offending operands the left one decides. -/
theorem outcome_two_faults :
    Outcome.ofTokens .standard ["1", "/", "0", "+", "."] =
      .failure "1 / 0 + ." .divisionByZero "Cannot divide by zero" := by
  have h := (@outcome_leftmost .standard ⟨"1", [(.div, "0"), (.add, ".")]⟩ (by decide)).2.1
  exact h [(none, "1")] (some .div, "0") [(some .add, ".")] rfl (by decide +kernel)
    (by decide +kernel)

end Keypad
