import Keypad.Proofs.Evaluation.Stacks

/-! # The grammar of expressions

    expr = term (('+' | '-') term)*
    term = number (('*' | '/') number)*

The operators of precedence 1 are `+` and `-` (`precedence_eq_one_iff`), those of precedence 2 are
`*` and `/` (`precedence_eq_two_iff`).

The value of an expression folds its terms from left to right, that of a term its factors.  Grouping
the links of a chain by precedence (`group`) is inverse to writing an expression as a chain
(`chain_group`, `group_chain`), so that every infix expression is derived in exactly one way.  The
two stacks compute the value (`runFrom_write`), whatever the numbers are and whatever the operators
compute: a term is folded while its factors are read, with at most one sum waiting below it. -/

namespace Keypad.Grammar

variable {α β τ : Type}

/-- An operator of the given precedence. -/
abbrev OfPrecedence (level : Nat) : Type := {op : Operator // op.precedence = level}

/-- The operators between terms are `+` and `-`. -/
theorem precedence_eq_one_iff {op : Operator} :
    op.precedence = 1 ↔ op.symbol = "+" ∨ op.symbol = "-" := by
  cases op <;> decide

/-- The operators between factors are `*` and `/`. -/
theorem precedence_eq_two_iff {op : Operator} :
    op.precedence = 2 ↔ op.symbol = "*" ∨ op.symbol = "/" := by
  cases op <;> decide

/-- A number with its factors: `number (('*' | '/') number)*`. -/
structure Term (α : Type) where
  first : α
  factors : List (OfPrecedence 2 × α)

/-- A term with further terms: `term (('+' | '-') term)*`. -/
structure Expr (α : Type) where
  first : Term α
  terms : List (OfPrecedence 1 × Term α)

/-! ### Values -/

/-- The value of a term, from left to right. -/
def Term.value (value : α → β) (compute : Operator → β → β → β) (t : Term α) : β :=
  t.factors.foldl (fun a p => compute p.1.1 a (value p.2)) (value t.first)

/-- The value of an expression, from left to right. -/
def Expr.value (value : α → β) (compute : Operator → β → β → β) (e : Expr α) : β :=
  e.terms.foldl (fun a p => compute p.1.1 a (p.2.value value compute)) (e.first.value value compute)

/-! ### Chains -/

/-- The links of a list of factors. -/
def factorLinks (fs : List (OfPrecedence 2 × α)) : List (Operator × α) :=
  fs.map fun p => (p.1.1, p.2)

/-- The links of a list of terms. -/
def termLinks (ts : List (OfPrecedence 1 × Term α)) : List (Operator × α) :=
  ts.flatMap fun p => (p.1.1, p.2.first) :: factorLinks p.2.factors

@[simp] theorem factorLinks_cons (op : OfPrecedence 2) (x : α) (fs : List (OfPrecedence 2 × α)) :
    factorLinks ((op, x) :: fs) = (op.1, x) :: factorLinks fs := rfl

@[simp] theorem termLinks_cons (op : OfPrecedence 1) (t : Term α)
    (ts : List (OfPrecedence 1 × Term α)) : termLinks ((op, t) :: ts) =
      (op.1, t.first) :: (factorLinks t.factors ++ termLinks ts) := rfl

/-- The chain that an expression is written as. -/
def Expr.chain (e : Expr α) : Chain α :=
  ⟨e.first.first, factorLinks e.first.factors ++ termLinks e.terms⟩

/-- The expression that a chain is read as: the factors that follow the first operand make up the
first term. -/
def group (x : α) : List (Operator × α) → Expr α
  | [] => ⟨⟨x, []⟩, []⟩
  | (op, y) :: links =>
    let e := group y links
    if h : op.precedence = 2 then ⟨⟨x, (⟨op, h⟩, y) :: e.first.factors⟩, e.terms⟩
    else ⟨⟨x, []⟩, (⟨op, op.precedence_eq_one_or_two.resolve_right h⟩, e.first) :: e.terms⟩

theorem group_first : ∀ (x : α) (links : List (Operator × α)), (group x links).first.first = x
  | _, [] => rfl
  | x, (op, y) :: links => by
    unfold group
    split <;> rfl

theorem chain_group : ∀ (x : α) (links : List (Operator × α)), (group x links).chain = ⟨x, links⟩
  | _, [] => rfl
  | x, (op, y) :: links => by
    have ih : factorLinks (group y links).first.factors ++ termLinks (group y links).terms =
        links := congrArg Chain.links (chain_group y links)
    have hy := group_first y links
    unfold group
    split
    · simp only [Expr.chain, factorLinks_cons, List.cons_append, ih]
    · simp only [Expr.chain, termLinks_cons, hy, ih]
      rfl

theorem group_links : ∀ (ts : List (OfPrecedence 1 × Term α)) (fs : List (OfPrecedence 2 × α))
    (x : α), group x (factorLinks fs ++ termLinks ts) = ⟨⟨x, fs⟩, ts⟩
  | [], [], _ => rfl
  | (op, t) :: ts, [], x => by
    have ih := group_links ts t.factors t.first
    have hop : op.1.precedence ≠ 2 := by rw [op.2]; decide
    show group x ((op.1, t.first) :: (factorLinks t.factors ++ termLinks ts)) = _
    unfold group
    simp only [dif_neg hop, ih]
  | ts, (op, y) :: fs, x => by
    have ih := group_links ts fs y
    show group x ((op.1, y) :: (factorLinks fs ++ termLinks ts)) = _
    unfold group
    simp only [dif_pos op.2, ih]

theorem group_chain (e : Expr α) : group e.chain.first e.chain.links = e :=
  group_links e.terms e.first.factors e.first.first

theorem chain_injective {e e' : Expr α} (h : e.chain = e'.chain) : e = e' := by
  rw [← group_chain e, ← group_chain e', h]

/-! ### The two stacks compute the value -/

section Run

open Stacks Chain

variable {read : τ → Except Fault (Token β)} {apply : Operator → β → β → Except Fault β}
  {sym : Operator → τ} {txt : α → τ} {value : α → β} {compute : Operator → β → β → β}
  (hsym : ∀ op, read (sym op) = .ok (.operator op))
  (htxt : ∀ x, read (txt x) = .ok (.number (value x)))
include hsym

theorem nextWithin_factors (fs : List (OfPrecedence 2 × α)) {ts : List τ}
    (hts : NextWithin read 2 ts) :
    NextWithin read 2 (writeLinks sym txt (factorLinks fs) ++ ts) := by
  refine nextWithin_writeLinks hsym (fun p hp => ?_) hts
  obtain ⟨q, -, rfl⟩ := List.mem_map.mp (List.mem_of_mem_head? hp)
  exact Nat.le_of_eq q.1.2

theorem nextWithin_terms (ts : List (OfPrecedence 1 × Term α)) :
    NextWithin read 1 (writeLinks sym txt (termLinks ts)) := by
  have hend : NextWithin read 1 [] := nofun
  rw [← List.append_nil (writeLinks sym txt (termLinks ts))]
  refine nextWithin_writeLinks hsym ?_ hend
  cases ts with
  | nil => exact nofun
  | cons q ts =>
    rintro p ⟨⟩
    exact Nat.le_of_eq q.1.2

include htxt

/-- The factors of a term are folded while they are read, if only sums wait below the term. -/
theorem runFrom_factors {xs : List β} {ops : List Operator} {ts : List τ}
    (hops : ∀ op ∈ ops.head?, op.precedence < 2) (hts : NextWithin read 2 ts)
    (fs : List (OfPrecedence 2 × α)) (a : β)
    (hok : ∀ p ∈ factorLinks fs, ∀ a, apply p.1 a (value p.2) = .ok (compute p.1 a (value p.2))) :
    runFrom read apply ⟨a :: xs, ops⟩ (writeLinks sym txt (factorLinks fs) ++ ts) =
      runFrom read apply ⟨fs.foldl (fun a p => compute p.1.1 a (value p.2)) a :: xs, ops⟩ ts := by
  induction fs generalizing a with
  | nil => rfl
  | cons p fs ih =>
    obtain ⟨op, y⟩ := p
    obtain ⟨hy, hfs⟩ := List.forall_mem_cons.mp hok
    have hnext : NextWithin read op.1.precedence (writeLinks sym txt (factorLinks fs) ++ ts) := by
      rw [op.2]
      exact nextWithin_factors hsym fs hts
    simp only [factorLinks_cons, writeLinks_cons, List.cons_append, List.foldl_cons]
    rw [runFrom_operator (hsym _), fold_of_lt (by rw [op.2]; exact hops), ok_bind]
    rw [runFrom_number (htxt _), runFrom_settle hnext, hy, ok_bind]
    exact ih _ hfs

/-- The terms of an expression are folded while they are read. -/
theorem runFrom_terms (hadd : ∀ op : OfPrecedence 1, ∀ a b, apply op.1 a b = .ok (compute op.1 a b))
    (ts : List (OfPrecedence 1 × Term α)) (a : β)
    (hok : ∀ p ∈ termLinks ts, ∀ a, apply p.1 a (value p.2) = .ok (compute p.1 a (value p.2))) :
    runFrom read apply ⟨[a], []⟩ (writeLinks sym txt (termLinks ts)) =
      .ok (ts.foldl (fun a p => compute p.1.1 a (p.2.value value compute)) a) := by
  induction ts generalizing a with
  | nil => rfl
  | cons p ts ih =>
    obtain ⟨op, t⟩ := p
    obtain ⟨hfs, hts⟩ := List.forall_mem_append.mp (List.forall_mem_cons.mp hok).2
    have hnext : NextWithin read 1 (writeLinks sym txt (termLinks ts)) := nextWithin_terms hsym ts
    have hlt : ∀ o ∈ [op.1].head?, o.precedence < 2 := by
      rintro o ⟨⟩
      rw [op.2]
      decide
    simp only [termLinks_cons, writeLinks_cons, writeLinks_append, List.foldl_cons]
    rw [runFrom_operator (hsym _), fold_of_lt (by rintro o ⟨⟩), ok_bind, runFrom_number (htxt _)]
    rw [runFrom_factors hsym htxt hlt (hnext.mono (by decide)) t.factors _ hfs]
    rw [runFrom_settle (by rw [op.2]; exact hnext), hadd, ok_bind]
    exact ih _ hts

/-- **The two stacks compute the value of an expression**, given that no operation on its operands
fails. -/
theorem runFrom_write
    (hadd : ∀ op : OfPrecedence 1, ∀ a b, apply op.1 a b = .ok (compute op.1 a b)) (e : Expr α)
    (hok : ∀ p ∈ e.chain.links, ∀ a, apply p.1 a (value p.2) = .ok (compute p.1 a (value p.2))) :
    runFrom read apply .empty (e.chain.write sym txt) = .ok (e.value value compute) := by
  obtain ⟨⟨x, fs⟩, ts⟩ := e
  obtain ⟨hfs, hts⟩ := List.forall_mem_append.mp hok
  have hnext : NextWithin read 1 (writeLinks sym txt (termLinks ts)) := nextWithin_terms hsym ts
  show runFrom read apply ⟨[], []⟩
    (txt x :: writeLinks sym txt (factorLinks fs ++ termLinks ts)) = _
  rw [writeLinks_append, runFrom_number (htxt _)]
  rw [runFrom_factors hsym htxt (by rintro o ⟨⟩) (hnext.mono (by decide)) fs _ hfs]
  exact runFrom_terms hsym htxt hadd ts _ hts

end Run

/-! ### Infix expressions -/

/-- The tokens of an expression over number texts. -/
def Expr.tokens (e : Expr Numeric) : List String := e.chain.write Operator.symbol Subtype.val

theorem tokens_injective {e e' : Expr Numeric} (h : e.tokens = e'.tokens) : e = e' :=
  chain_injective (Chain.write_injective Operator.symbol_injective Subtype.ext h)

/-- Every infix expression is derived by the grammar. -/
theorem exists_derivation {tokens : List String} (h : IsInfixExpression tokens) :
    ∃ e : Expr Numeric, e.tokens = tokens := by
  obtain ⟨c, hc⟩ := h.exists_chain
  refine ⟨group c.first c.links, ?_⟩
  rw [Expr.tokens, chain_group]
  exact hc

/-- **Standard arithmetic.**  An infix expression in which no divisor is refused has exactly one
derivation, and its value is that of the derivation: the stacks apply the same operations to the
same operands, whatever the numbers are read as and whatever the operators compute. -/
theorem evaluate_eq_value {settings : Settings} {tokens : List String}
    (hi : IsInfixExpression tokens)
    (hd : ∀ p ∈ tokens.zip tokens.tail, p.1 = "/" →
      (Token.number? p.2).any (Operator.isZeroDivisor settings.zeroTolerance) = false) :
    ∃ e : Expr Numeric, e.tokens = tokens ∧ (∀ e' : Expr Numeric, e'.tokens = tokens → e' = e) ∧
      evaluate settings tokens = .ok (e.value Numeric.value Operator.compute) ∧
      ∀ (α : Type) (value : Numeric → α) (compute : Operator → α → α → α),
        Stacks.runFrom .ok (fun op a b => .ok (compute op a b)) .empty
          (e.chain.write Token.operator fun x => Token.number (value x)) =
            .ok (e.value value compute) := by
  obtain ⟨e, rfl⟩ := exists_derivation hi
  refine ⟨e, rfl, fun e' h => tokens_injective h, ?_, fun α value compute => ?_⟩
  · have hop : hasDanglingOperator e.tokens = false :=
      Chain.hasDanglingOperator_write fun p _ => Token.isOperator_of_isNumber p.2.2
    have hne : e.tokens ≠ [] := List.cons_ne_nil _ _
    rw [evaluate_eq_runFrom hne hop]
    refine runFrom_write Token.ofText_symbol (fun x => Token.ofText_of_number? x.number?_eq)
      (fun op a b => Operator.apply_eq_ok (fun h => ?_) a) e
      fun p hp a => Operator.apply_eq_ok (fun h => ?_) a
    · have := op.2
      rw [h] at this
      cases this
    · have := hd _ (Chain.mem_zip_write hp) (by rw [h]; rfl)
      rwa [p.2.number?_eq, Option.any_some] at this
  · exact runFrom_write (fun _ => rfl) (fun _ => rfl) (fun _ _ _ => rfl) e fun _ _ _ => rfl

/-- Products and quotients are computed before sums and differences. -/
theorem evaluate_mixed_precedence : ∃ e : Expr Numeric,
    e.tokens = ["7", "+", "3", "*", "2", "-", "4", "/", "2"] ∧
      evaluate .standard ["7", "+", "3", "*", "2", "-", "4", "/", "2"] =
        .ok (e.value Numeric.value Operator.compute) ∧
      e.value Numeric.value Operator.compute = Binary64.ofDecimal false ⟨11, 0⟩ := by
  have hi : IsInfixExpression ["7", "+", "3", "*", "2", "-", "4", "/", "2"] := by decide
  have heleven : (evaluate .standard ["7", "+", "3", "*", "2", "-", "4", "/", "2"]).toOption =
      some (Binary64.ofDecimal false ⟨11, 0⟩) := by decide +kernel
  obtain ⟨e, he, -, hv, -⟩ := @evaluate_eq_value .standard _ hi (by decide +kernel)
  rw [hv] at heleven
  exact ⟨e, he, hv, Option.some.inj heleven⟩

end Keypad.Grammar
