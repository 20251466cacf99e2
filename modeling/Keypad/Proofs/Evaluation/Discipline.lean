import Keypad.Proofs.Evaluation.Acceptance
import Mathlib.Data.List.Basic
import Mathlib.Data.List.Induction
import Mathlib.Data.Nat.Notation

/-! # The discipline of the stacks

Between two tokens every operator on the stack binds more tightly than those below it, so there are
at most two.  As long as numbers and operators alternate (`Alternates`) there is one operand more
than operators after a number, and there are as many of both after an operator.  A token keeps both
(`Disciplined.readToken`), hence they hold wherever the tokens are read up to without a failure
(`disciplined_of_readTokens`).

`applications` lists what the operators that a fold applies find on the stacks.  A fold runs out of
operands exactly if one of them finds fewer than two (`fold_eq_missingOperand_iff`), and none does
while numbers and operators alternate (`stack_discipline`). -/

namespace Keypad

open Stacks

/-! ### Alternating tokens -/

/-- Numbers at the even positions and operators at the odd ones. -/
def Alternates (tokens : List String) : Prop :=
  ∀ i (h : i < tokens.length),
    if i % 2 = 0 then Token.isNumber tokens[i] = true else Token.isOperator tokens[i] = true

theorem isInfixExpression_iff {tokens : List String} :
    IsInfixExpression tokens ↔ tokens.length % 2 = 1 ∧ Alternates tokens := Iff.rfl

/-- The last of alternating tokens is a number after an even count of tokens and an operator after
an odd one. -/
theorem Alternates.of_concat {tokens : List String} {t : String} (h : Alternates (tokens ++ [t])) :
    Alternates tokens ∧ (tokens.length % 2 = 0 ∧ Token.isNumber t = true ∨
      tokens.length % 2 = 1 ∧ ∃ op : Operator, t = op.symbol) := by
  have hinit : Alternates tokens := by
    intro i hi
    have := h i (by simp; omega)
    rwa [List.getElem_append_left hi] at this
  have hlast := h tokens.length (by simp)
  rw [List.getElem_concat_length rfl] at hlast
  by_cases heven : tokens.length % 2 = 0
  · rw [if_pos heven] at hlast
    exact ⟨hinit, Or.inl ⟨heven, hlast⟩⟩
  · rw [if_neg heven] at hlast
    exact ⟨hinit, Or.inr ⟨by omega, Token.isOperator_iff.mp hlast⟩⟩

/-- Alternating tokens end with a number if their count is odd, and else with an operator. -/
theorem Alternates.length_mod_two {tokens : List String} {t : String} (h : Alternates tokens)
    (ht : t ∈ tokens.getLast?) :
    (Token.isNumber t = true ↔ tokens.length % 2 = 1) ∧
      (Token.isOperator t = true ↔ tokens.length % 2 = 0) := by
  obtain ⟨init, rfl⟩ := List.getLast?_eq_some_iff.mp ht
  rw [List.length_append, List.length_singleton]
  rcases h.of_concat with ⟨-, ⟨heven, hnumber⟩ | ⟨hodd, op, rfl⟩⟩
  · have hoperator := Token.isOperator_of_isNumber hnumber
    exact ⟨iff_of_true hnumber (by omega), iff_of_false (by simp [hoperator]) (by omega)⟩
  · exact ⟨iff_of_false (by simp) (by omega), iff_of_true (by simp) (by omega)⟩

namespace Stacks

variable {α : Type} {apply : Operator → α → α → Except Fault α}

/-! ### What the applied operators find -/

/-- The stacks that the operators applied by a fold find, the operator to be applied on top.  The
application that a fold fails with is the last one. -/
def applications (apply : Operator → α → α → Except Fault α) (level : ℕ) :
    List α → List Operator → List (Stacks α)
  | _, [] => []
  | operands, op :: ops =>
    if level ≤ op.precedence then
      ⟨operands, op :: ops⟩ ::
        match operands with
        | b :: a :: rest =>
          match apply op a b with
          | .ok c => applications apply level (c :: rest) ops
          | .error _ => []
        | _ => []
    else []

theorem applications_of_lt {level : ℕ} {xs : List α} {op : Operator} {ops : List Operator}
    (h : op.precedence < level) : applications apply level xs (op :: ops) = [] := by
  rw [applications.eq_def]
  simp only [if_neg (Nat.not_le.mpr h)]

theorem applications_cons {level : ℕ} {a b : α} {xs : List α} {op : Operator}
    {ops : List Operator} (h : level ≤ op.precedence) :
    applications apply level (b :: a :: xs) (op :: ops) = ⟨b :: a :: xs, op :: ops⟩ ::
      match apply op a b with
      | .ok c => applications apply level (c :: xs) ops
      | .error _ => [] := by
  rw [applications.eq_def]
  simp only [if_pos h]

/-- An operator that finds fewer than two operands is the last one that is applied, and the fold
fails. -/
theorem fold_of_length_lt_two {level : ℕ} {xs : List α} {op : Operator} {ops : List Operator}
    (h : level ≤ op.precedence) (hfew : xs.length < 2) :
    fold apply level xs (op :: ops) = .error (.missingOperand op.symbol) ∧
      applications apply level xs (op :: ops) = [⟨xs, op :: ops⟩] := by
  refine ⟨fold_of_few h hfew, ?_⟩
  rcases xs with _ | ⟨b, _ | ⟨a, rest⟩⟩
  · rw [applications.eq_def]
    simp only [if_pos h]
  · rw [applications.eq_def]
    simp only [if_pos h]
  · simp only [List.length_cons] at hfew
    omega

theorem exists_eq_cons_cons {xs : List α} (h : ¬ xs.length < 2) :
    ∃ b a rest, xs = b :: a :: rest := by
  rcases xs with _ | ⟨b, _ | ⟨a, rest⟩⟩
  · simp at h
  · simp at h
  · exact ⟨b, a, rest, rfl⟩

/-- With operands enough for the operators that are folded, each of them finds two. -/
theorem two_le_of_mem_applications {level : ℕ} {ops : List Operator} {xs : List α}
    (hlen : ops.length < xs.length + (kept level ops).length) :
    ∀ s ∈ applications apply level xs ops, 2 ≤ s.operands.length := by
  induction ops generalizing xs with
  | nil =>
    intro s hs
    cases hs
  | cons op ops ih =>
    intro s hs
    by_cases hle : level ≤ op.precedence
    · rw [kept_cons_of_le ops hle, List.length_cons] at hlen
      have hkept := (kept_suffix level ops).length_le
      have htwo : ¬ xs.length < 2 := by omega
      obtain ⟨b, a, rest, rfl⟩ := exists_eq_cons_cons htwo
      rw [applications_cons hle] at hs
      rcases List.mem_cons.mp hs with rfl | hs
      · simp
      · cases hc : apply op a b with
        | error f =>
          rw [hc] at hs
          cases hs
        | ok c =>
          rw [hc] at hs
          simp only [List.length_cons] at hlen
          have hrest : ops.length < (c :: rest).length + (kept level ops).length := by
            rw [List.length_cons]
            omega
          exact ih hrest s hs
    · rw [applications_of_lt (Nat.lt_of_not_le hle)] at hs
      cases hs

/-- **Running out of operands** is to apply an operator to fewer than two. -/
theorem fold_eq_missingOperand_iff {level : ℕ} {ops : List Operator} {xs : List α}
    (happly : ∀ op a b symbol, apply op a b ≠ .error (.missingOperand symbol)) :
    (∃ symbol, fold apply level xs ops = .error (.missingOperand symbol)) ↔
      ∃ s ∈ applications apply level xs ops, s.operands.length < 2 := by
  induction ops generalizing xs with
  | nil => simp [fold, applications]
  | cons op ops ih =>
    by_cases hle : level ≤ op.precedence
    · by_cases hfew : xs.length < 2
      · rw [(fold_of_length_lt_two hle hfew).1, (fold_of_length_lt_two hle hfew).2]
        exact iff_of_true ⟨_, rfl⟩ ⟨_, List.mem_singleton_self _, hfew⟩
      · obtain ⟨b, a, rest, rfl⟩ := exists_eq_cons_cons hfew
        rw [fold_cons hle, applications_cons hle, List.exists_mem_cons_iff]
        cases hc : apply op a b with
        | error f =>
          have hf : ∀ symbol, f ≠ .missingOperand symbol := fun symbol heq =>
            happly op a b symbol (heq ▸ hc)
          simp [hf]
        | ok c =>
          rw [ok_bind, ih]
          exact (or_iff_right hfew).symm
    · have hlt : op.precedence < level := Nat.lt_of_not_le hle
      rw [fold_of_lt (by rintro o ⟨⟩; exact hlt), applications_of_lt hlt]
      simp

/-! ### Two precedences -/

/-- There are only two precedences. -/
theorem Ordered.length_le {ops : List Operator} (h : Ordered ops) : ops.length ≤ 2 := by
  match ops with
  | [] | [_] | [_, _] => simp
  | o₁ :: o₂ :: o₃ :: _ =>
    obtain ⟨h₁, h⟩ := List.pairwise_cons.mp h
    have h₁₂ := h₁ o₂ (by simp)
    have h₂₃ := (List.pairwise_cons.mp h).1 o₃ (by simp)
    have := o₁.precedence_eq_one_or_two
    have := o₃.precedence_eq_one_or_two
    omega

end Stacks

/-! ### One token -/

section Reading

variable {settings : Settings} {p : List String} {s s' : Stacks Binary64} {t : String}

theorem readTokens_concat : readTokens settings (p ++ [t]) =
    readTokens settings p >>= fun s => readToken settings s t := by
  simp only [readTokens, List.foldlM_append, List.foldlM_cons, List.foldlM_nil, bind_pure]

theorem readToken_number {x : Binary64} (h : Token.number? t = some x) :
    readToken settings s t = .ok ⟨x :: s.operands, s.operators⟩ := by
  rw [readToken, Token.ofText_of_number? h, ok_bind]
  rfl

theorem readToken_symbol (op : Operator) : readToken settings s op.symbol =
    fold (Operator.apply settings.zeroTolerance) op.precedence s.operands s.operators >>=
      fun r => .ok ⟨r.operands, op :: r.operators⟩ := by
  rw [readToken, Token.ofText_symbol, ok_bind]
  rfl

/-- **What a token does**: a number is pushed, and an operator folds and is pushed. -/
theorem readToken_cases (h : readToken settings s t = .ok s') :
    (Token.isNumber t = true ∧ ∃ x, s' = ⟨x :: s.operands, s.operators⟩) ∨
      ∃ op : Operator, ∃ r, t = op.symbol ∧
        fold (Operator.apply settings.zeroTolerance) op.precedence s.operands s.operators = .ok r ∧
          s' = ⟨r.operands, op :: r.operators⟩ := by
  rcases Token.kinds t with ⟨x, hx⟩ | ⟨op, rfl⟩ | ⟨hn, ho⟩
  · rw [readToken_number hx] at h
    exact Or.inl ⟨by simp [Token.isNumber, hx], x, (Except.ok.inj h).symm⟩
  · rw [readToken_symbol] at h
    obtain ⟨r, hr, h⟩ := bind_eq_ok_iff.mp h
    exact Or.inr ⟨op, r, rfl, hr, (Except.ok.inj h).symm⟩
  · rw [readToken, Token.ofText_of_number?_eq_none hn ho] at h
    cases h

/-- **The discipline** of the stacks after the tokens `p`. -/
structure Disciplined (p : List String) (s : Stacks Binary64) : Prop where
  ordered : Ordered s.operators
  balanced : Alternates p → s.operands.length = s.operators.length + p.length % 2

theorem Disciplined.readToken (h : Disciplined p s) (ht : readToken settings s t = .ok s') :
    Disciplined (p ++ [t]) s' := by
  rcases readToken_cases ht with ⟨hnumber, x, rfl⟩ | ⟨op, r, rfl, hr, rfl⟩
  · refine ⟨h.ordered, fun halt => ?_⟩
    obtain ⟨hp, ⟨heven, -⟩ | ⟨-, op, rfl⟩⟩ := halt.of_concat
    · have hbalanced := h.balanced hp
      simp only [List.length_append, List.length_cons, List.length_nil]
      omega
    · simp at hnumber
  · obtain ⟨hops, hlen, -⟩ := fold_ok hr
    refine ⟨?_, fun halt => ?_⟩
    · show Ordered (op :: r.operators)
      rw [hops]
      exact h.ordered.cons_kept op
    · obtain ⟨hp, ⟨-, hnumber⟩ | ⟨hodd, -⟩⟩ := halt.of_concat
      · simp at hnumber
      · have hbalanced := h.balanced hp
        simp only [List.length_append, List.length_cons, List.length_nil]
        omega

/-! ### All tokens -/

theorem disciplined_of_readTokens (h : readTokens settings p = .ok s) : Disciplined p s := by
  induction p using List.reverseRecOn generalizing s with
  | nil =>
    cases h
    exact ⟨List.Pairwise.nil, fun _ => rfl⟩
  | append_singleton p t ih =>
    rw [readTokens_concat] at h
    obtain ⟨r, hr, ht⟩ := bind_eq_ok_iff.mp h
    exact (ih hr).readToken ht

/-- An operator after a number folds with operands enough. -/
theorem Disciplined.two_le (h : Disciplined p s) (tolerance : Binary64)
    (hp : IsInfixExpression p) (level : ℕ) :
    ∀ r ∈ applications (Operator.apply tolerance) level s.operands s.operators,
      2 ≤ r.operands.length := by
  obtain ⟨hodd, halt⟩ := isInfixExpression_iff.mp hp
  have hbalanced := h.balanced halt
  exact two_le_of_mem_applications (by omega)

theorem apply_ne_missingOperand (tolerance : Binary64) (op : Operator) (a b : Binary64)
    (symbol : String) : op.apply tolerance a b ≠ .error (.missingOperand symbol) := by
  intro h
  cases (Operator.eq_of_apply_eq_error h).2

theorem Disciplined.fold_ne_missingOperand (h : Disciplined p s) (tolerance : Binary64)
    (hp : IsInfixExpression p) (level : ℕ) (symbol : String) :
    fold (Operator.apply tolerance) level s.operands s.operators ≠
      .error (.missingOperand symbol) := by
  intro hfold
  obtain ⟨r, hr, hlt⟩ :=
    (fold_eq_missingOperand_iff (apply_ne_missingOperand tolerance)).mp ⟨_, hfold⟩
  have := h.two_le tolerance hp level r hr
  omega

/-- Reading alternating tokens never runs out of operands. -/
theorem Alternates.readTokens_ne_missingOperand (h : Alternates p) (symbol : String) :
    readTokens settings p ≠ .error (.missingOperand symbol) := by
  induction p using List.reverseRecOn with
  | nil =>
    intro h
    cases h
  | append_singleton p t ih =>
    obtain ⟨hp, hkind⟩ := h.of_concat
    rw [readTokens_concat]
    cases hr : readTokens settings p with
    | error f =>
      rw [error_bind, ← hr]
      exact ih hp
    | ok s =>
      rw [ok_bind]
      rcases hkind with ⟨-, hnumber⟩ | ⟨hodd, op, rfl⟩
      · obtain ⟨x, hx⟩ := Option.isSome_iff_exists.mp hnumber
        rw [readToken_number hx]
        simp
      · have hfold := (disciplined_of_readTokens hr).fold_ne_missingOperand
          settings.zeroTolerance ⟨hodd, hp⟩ op.precedence symbol
        rw [readToken_symbol]
        cases hf : fold (Operator.apply settings.zeroTolerance) op.precedence s.operands
            s.operators with
        | error f =>
          rw [error_bind, ← hf]
          exact hfold
        | ok r => simp

/-- Nor does the evaluation of alternating tokens. -/
theorem Alternates.evaluate_ne_missingOperand (h : Alternates p) (symbol : String) :
    evaluate settings p ≠ .error (.missingOperand symbol) := by
  by_cases hodd : p.length % 2 = 1
  · have hinfix : IsInfixExpression p := ⟨hodd, h⟩
    have hevaluate : (∃ x, evaluate settings p = .ok x) ∨
        evaluate settings p = .error .divisionByZero ∧ Operator.div.symbol ∈ p :=
      evaluate_of_isFoldable hinfix.isFoldable
    rcases hevaluate with ⟨x, hx⟩ | ⟨hd, -⟩
    · rw [hx]
      simp
    · rw [hd]
      simp
  · cases hlast : p.getLast? with
    | none =>
      rw [List.getLast?_eq_none_iff.mp hlast]
      intro h
      cases h
    | some t =>
      have ht := (h.length_mod_two hlast).2.mpr (by omega)
      have hne : p ≠ [] := by
        rintro rfl
        cases hlast
      have hdangling : hasDanglingOperator p = true := by simp [hasDanglingOperator, hlast, ht]
      unfold evaluate
      rw [if_neg (by simpa using hne), if_pos hdangling]
      simp

end Reading

/-- **The discipline of the stacks.**  After any tokens `p` that are read without a failure, every
operator on the stack binds more tightly than those below it, and there are at most two.  If `p`
alternates between numbers and operators, there is one operand more than operators after a number,
so that every operator that is applied next finds two operands, whether an operator or the end
follows; and there are as many operands as operators after an operator.  Hence neither reading nor
evaluating alternating tokens runs out of operands. -/
theorem stack_discipline (settings : Settings) (p : List String) :
    (∀ s, readTokens settings p = .ok s →
      Ordered s.operators ∧ s.operators.length ≤ 2 ∧
        (Alternates p → ∀ t ∈ p.getLast?,
          (Token.isNumber t = true → s.operands.length = s.operators.length + 1 ∧
            ∀ level, ∀ r ∈ applications (Operator.apply settings.zeroTolerance) level
              s.operands s.operators, 2 ≤ r.operands.length) ∧
          (Token.isOperator t = true → s.operands.length = s.operators.length))) ∧
    (Alternates p → ∀ symbol, readTokens settings p ≠ .error (.missingOperand symbol) ∧
      evaluate settings p ≠ .error (.missingOperand symbol)) := by
  refine ⟨fun s hs => ?_, fun halt symbol =>
    ⟨halt.readTokens_ne_missingOperand symbol, halt.evaluate_ne_missingOperand symbol⟩⟩
  have hdisciplined := disciplined_of_readTokens hs
  refine ⟨hdisciplined.ordered, hdisciplined.ordered.length_le, fun halt t ht => ⟨?_, ?_⟩⟩
  · intro hnumber
    have hodd := (halt.length_mod_two ht).1.mp hnumber
    have hbalanced := hdisciplined.balanced halt
    exact ⟨by omega, hdisciplined.two_le _ ⟨hodd, halt⟩⟩
  · intro hoperator
    have heven := (halt.length_mod_two ht).2.mp hoperator
    have hbalanced := hdisciplined.balanced halt
    omega

/-- A sum waits below a product, and an operator after an operator finds a single operand. -/
example : ((readTokens .standard ["2", "+", "3", "*", "4"]).toOption.map fun s =>
      (s.operands.length, s.operators)) = some (3, [.mul, .add]) ∧
    evaluate .standard ["1", "*", "+", "2"] = .error (.missingOperand "*") := by
  decide +kernel

end Keypad
