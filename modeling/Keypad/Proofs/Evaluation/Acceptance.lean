import Keypad.Proofs.Evaluation.Stacks

/-! # The lists that are accepted

A list of tokens is tested for an operator at either end; everything else is left to the stacks,
which fail when a fold runs out of operands or when an operand is left over.  This accepts more than
the infix expressions: in `1 2 + + 3` the first sum is folded with both numbers before it.

What the stacks know of the tokens read is how many numbers and operators they are and whether one
of them is a sum or a difference (`Reached`).  So an operator is accepted according to these
(`hasRoom_iff`), and the lists that evaluate are those in which every operator is (`IsFoldable`),
unless a divisor is refused. -/

namespace Keypad

open Stacks

/-- There are operands enough for an operator after the given tokens.  A product needs one less
after a sum, which is not folded. -/
def HasRoom (before : List String) (op : Operator) : Prop :=
  before.countP Token.isOperator < before.countP Token.isNumber ∨
    before.countP Token.isOperator = before.countP Token.isNumber ∧ op.precedence = 2 ∧
      ∃ o : Operator, o.precedence = 1 ∧ o.symbol ∈ before

/-- A list of numbers and operators that the stacks can fold. -/
structure IsFoldable (tokens : List String) : Prop where
  read : ∀ t ∈ tokens, Token.isNumber t = true ∨ Token.isOperator t = true
  room : ∀ before op after, tokens = before ++ op.symbol :: after → HasRoom before op
  count : tokens.countP Token.isNumber = tokens.countP Token.isOperator + 1
  last : ∀ t ∈ tokens.getLast?, Token.isOperator t = false

namespace Acceptance

/-! ### What the stacks know -/

/-- The stacks after the tokens `p`. -/
structure Reached (p : List String) (s : Stacks Binary64) : Prop where
  ordered : Ordered s.operators
  stacked : ∀ o ∈ s.operators, o.symbol ∈ p
  additive : ∀ o : Operator, o.precedence = 1 → o.symbol ∈ p →
    ∃ o' ∈ s.operators, o'.precedence = 1
  length : s.operands.length + p.countP Token.isOperator =
    p.countP Token.isNumber + s.operators.length
  operands : p ≠ [] → s.operands ≠ []

theorem reached_empty : Reached [] .empty where
  ordered := List.Pairwise.nil
  stacked _ ho := nomatch ho
  additive _ _ ho := nomatch ho
  length := rfl
  operands h := absurd rfl h

variable {p : List String} {s s' : Stacks Binary64} {t : String} {op : Operator}

/-- A number is one more operand. -/
theorem Reached.number (h : Reached p s) (ht : Token.isNumber t = true) (x : Binary64) :
    Reached (p ++ [t]) ⟨x :: s.operands, s.operators⟩ := by
  have hop : Token.isOperator t = false := Token.isOperator_of_isNumber ht
  refine ⟨h.ordered, fun o ho => List.mem_append_left _ (h.stacked o ho), fun o ho hm => ?_, ?_,
    fun _ => List.cons_ne_nil _ _⟩
  · rcases List.mem_append.mp hm with hm | hm
    · exact h.additive o ho hm
    · rw [← List.mem_singleton.mp hm, Token.isOperator_symbol] at hop
      cases hop
  · have hlen := h.length
    simp only [List.countP_append, List.countP_singleton, ht, hop, List.length_cons]
    simp only [if_true, Bool.false_eq_true, if_false]
    omega

/-- An operator folds those that bind at least as tightly. -/
theorem Reached.operator (h : Reached p s) (hp : p ≠ []) {tolerance : Binary64}
    (hf : fold (Operator.apply tolerance) op.precedence s.operands s.operators = .ok s') :
    Reached (p ++ [op.symbol]) ⟨s'.operands, op :: s'.operators⟩ := by
  obtain ⟨hops, hlen, hne⟩ := fold_ok hf
  refine ⟨?_, fun o ho => ?_, fun o ho hm => ?_, ?_, fun _ => hne (h.operands hp)⟩
  · show Ordered (op :: s'.operators)
    rw [hops]
    exact h.ordered.cons_kept op
  · rcases List.mem_cons.mp ho with rfl | ho
    · exact List.mem_append_right _ (List.mem_singleton.mpr rfl)
    · rw [hops] at ho
      exact List.mem_append_left _ (h.stacked o ((kept_suffix _ _).subset ho))
  · -- a sum that is folded makes room for the incoming one
    rcases op.precedence_eq_one_or_two with h1 | h2
    · exact ⟨op, List.mem_cons_self, h1⟩
    · have hmem : o.symbol ∈ p := by
        rcases List.mem_append.mp hm with hm | hm
        · exact hm
        · have := Operator.symbol_injective (List.mem_singleton.mp hm)
          rw [← this, ho] at h2
          cases h2
      obtain ⟨o', ho', h1⟩ := h.additive o ho hmem
      refine ⟨o', List.mem_cons_of_mem _ ?_, h1⟩
      rw [hops]
      exact mem_kept (by omega) ho'
  · have hsum := h.length
    simp only [List.countP_append, List.countP_singleton, Token.isNumber_symbol,
      Token.isOperator_symbol, List.length_cons]
    simp only [if_true, Bool.false_eq_true, if_false]
    omega

/-- There is room for an operator exactly if its fold has operands enough. -/
theorem Reached.hasRoom_iff (h : Reached p s) (op : Operator) : HasRoom p op ↔
    s.operators.length < s.operands.length + (kept op.precedence s.operators).length := by
  have hlen := h.length
  unfold HasRoom
  rcases op.precedence_eq_one_or_two with h1 | h2
  · rw [h1, h.ordered.kept_one, List.length_nil]
    constructor
    · rintro (hlt | ⟨-, h2, -⟩)
      · omega
      · cases h2
    · exact fun hlt => Or.inl (by omega)
  · rw [h2]
    rcases h.ordered.kept_two with hk | ⟨o, ho, hk⟩
    · rw [hk, List.length_nil]
      constructor
      · rintro (hlt | ⟨-, -, o, ho, hm⟩)
        · omega
        · obtain ⟨o', hmem, h1⟩ := h.additive o ho hm
          have hkept : o' ∈ kept 2 s.operators := mem_kept (by omega) hmem
          rw [hk] at hkept
          cases hkept
      · exact fun hlt => Or.inl (by omega)
    · have hmem : o ∈ s.operators := (kept_suffix 2 _).subset (by rw [hk]; exact List.mem_cons_self)
      rw [hk, List.length_singleton]
      constructor
      · rintro (hlt | ⟨heq, -⟩) <;> omega
      · intro hlt
        by_cases heq : p.countP Token.isOperator = p.countP Token.isNumber
        · exact Or.inr ⟨heq, rfl, o, ho, h.stacked o hmem⟩
        · exact Or.inl (by omega)

/-- With operands enough, a fold fails only at a quotient. -/
theorem Reached.fold_total (h : Reached p s) (tolerance : Binary64) {level : Nat}
    (hlt : s.operators.length < s.operands.length + (kept level s.operators).length) :
    (∃ s', fold (Operator.apply tolerance) level s.operands s.operators = .ok s') ∨
      fold (Operator.apply tolerance) level s.operands s.operators = .error .divisionByZero ∧
        Operator.div.symbol ∈ p := by
  have happly : ∀ op ∈ s.operators, ∀ a b f, Operator.apply tolerance op a b = .error f →
      f = .divisionByZero ∧ Operator.div.symbol ∈ p := by
    intro op hop a b f hf
    obtain ⟨rfl, rfl⟩ := Operator.eq_of_apply_eq_error hf
    exact ⟨rfl, h.stacked _ hop⟩
  rcases Stacks.fold_total happly hlt with hok | ⟨f, hf, rfl, hd⟩
  · exact Or.inl hok
  · exact Or.inr ⟨hf, hd⟩

theorem not_hasRoom_nil (op : Operator) : ¬ HasRoom [] op := by
  rintro (hlt | ⟨-, -, o, -, hm⟩)
  · exact Nat.lt_irrefl 0 hlt
  · cases hm

/-! ### Runs -/

/-- A list that can be folded after the tokens `p`. -/
structure FoldableAfter (p ts : List String) : Prop where
  read : ∀ t ∈ ts, Token.isNumber t = true ∨ Token.isOperator t = true
  room : ∀ before op after, ts = before ++ op.symbol :: after → HasRoom (p ++ before) op
  count : (p ++ ts).countP Token.isNumber = (p ++ ts).countP Token.isOperator + 1

theorem foldableAfter_cons {ts : List String} : FoldableAfter p (t :: ts) ↔
    (Token.isNumber t = true ∨ ∃ op : Operator, t = op.symbol ∧ HasRoom p op) ∧
      FoldableAfter (p ++ [t]) ts := by
  constructor
  · rintro ⟨hread, hroom, hcount⟩
    refine ⟨?_, fun u hu => hread u (List.mem_cons_of_mem _ hu), fun before op after h => ?_, ?_⟩
    · rcases hread t List.mem_cons_self with hn | ho
      · exact Or.inl hn
      · obtain ⟨op, rfl⟩ := Token.isOperator_iff.mp ho
        have := hroom [] op ts rfl
        rw [List.append_nil] at this
        exact Or.inr ⟨op, rfl, this⟩
    · have := hroom (t :: before) op after (by rw [h, List.cons_append])
      rwa [List.append_assoc, List.singleton_append]
    · rwa [List.append_assoc, List.singleton_append]
  · rintro ⟨ht, hread, hroom, hcount⟩
    refine ⟨List.forall_mem_cons.mpr ⟨?_, hread⟩, fun before op after h => ?_, ?_⟩
    · rcases ht with hn | ⟨op, rfl, -⟩
      · exact Or.inl hn
      · exact Or.inr (Token.isOperator_symbol op)
    · cases before with
      | nil =>
        obtain ⟨rfl, -⟩ := List.cons.inj h
        rw [List.append_nil]
        rcases ht with hn | ⟨op', ho, hr⟩
        · simp at hn
        · rwa [Operator.symbol_injective ho]
      | cons t' before =>
        obtain ⟨rfl, htl⟩ := List.cons.inj h
        have := hroom before op after htl
        rwa [List.append_assoc, List.singleton_append] at this
    · rwa [List.append_assoc, List.singleton_append] at hcount

variable {tolerance : Binary64}

/-- A run that gives a value has read a list that can be folded. -/
theorem foldableAfter_of_runFrom {x : Binary64} : ∀ {ts p : List String} {s : Stacks Binary64},
    Reached p s → (p = [] → ∀ t ∈ ts.head?, Token.isOperator t = false) →
      runFrom Token.ofText (Operator.apply tolerance) s ts = .ok x → FoldableAfter p ts
  | [], p, s, hs, _, h => by
    rw [runFrom_nil] at h
    obtain ⟨s', hf, hx⟩ := bind_eq_ok_iff.mp h
    obtain ⟨hops, hlen, -⟩ := fold_ok hf
    have hone : s'.operands.length = 1 := by
      split at hx
      next heq => rw [heq]; rfl
      next => cases hx
    rw [hops, kept_zero, List.length_nil, hone] at hlen
    refine ⟨List.forall_mem_nil _, fun before op after h => ?_, ?_⟩
    · simp at h
    · have := hs.length
      rw [List.append_nil]
      omega
  | t :: ts, p, s, hs, hp, h => by
    have hne : p ++ [t] = [] → ∀ u ∈ ts.head?, Token.isOperator u = false := fun h => by simp at h
    rw [foldableAfter_cons]
    rcases Token.kinds t with ⟨y, hy⟩ | ⟨op, rfl⟩ | ⟨hn, ho⟩
    · have hnum : Token.isNumber t = true := by simp [Token.isNumber, hy]
      rw [runFrom_number (Token.ofText_of_number? hy)] at h
      exact ⟨Or.inl hnum, foldableAfter_of_runFrom (hs.number hnum y) hne h⟩
    · have hp : p ≠ [] := fun heq => by
        have := hp heq op.symbol rfl
        simp at this
      rw [runFrom_operator (Token.ofText_symbol op)] at h
      obtain ⟨s', hf, h⟩ := bind_eq_ok_iff.mp h
      have hroom : HasRoom p op := by
        obtain ⟨hops, hlen, hne⟩ := fold_ok hf
        have := List.length_pos_iff.mpr (hne (hs.operands hp))
        rw [hs.hasRoom_iff op, ← hops]
        omega
      exact ⟨Or.inr ⟨op, rfl, hroom⟩, foldableAfter_of_runFrom (hs.operator hp hf) hne h⟩
    · rw [runFrom_error (Token.ofText_of_number?_eq_none hn ho)] at h
      cases h

/-- A list that can be folded gives a value unless a divisor is refused. -/
theorem runFrom_of_foldableAfter : ∀ {ts p : List String} {s : Stacks Binary64},
    Reached p s → FoldableAfter p ts →
      (∃ x, runFrom Token.ofText (Operator.apply tolerance) s ts = .ok x) ∨
        runFrom Token.ofText (Operator.apply tolerance) s ts = .error .divisionByZero ∧
          Operator.div.symbol ∈ p ++ ts
  | [], p, s, hs, h => by
    have hcount := h.count
    have hlen := hs.length
    rw [List.append_nil] at hcount ⊢
    rw [runFrom_nil]
    have hlt : s.operators.length < s.operands.length + (kept 0 s.operators).length := by
      rw [kept_zero, List.length_nil]
      omega
    rcases hs.fold_total tolerance hlt with ⟨s', hf⟩ | ⟨hf, hd⟩
    · obtain ⟨hops, hlen', -⟩ := fold_ok hf
      rw [hops, kept_zero, List.length_nil] at hlen'
      obtain ⟨x, hx⟩ := List.length_eq_one_iff.mp (show s'.operands.length = 1 by omega)
      refine Or.inl ⟨x, ?_⟩
      unfold finish
      rw [hf, ok_bind, hx]
    · refine Or.inr ⟨?_, hd⟩
      unfold finish
      rw [hf, error_bind]
  | t :: ts, p, s, hs, h => by
    obtain ⟨ht, h⟩ := foldableAfter_cons.mp h
    have happ : p ++ t :: ts = (p ++ [t]) ++ ts := by simp
    rw [happ]
    rcases ht with hn | ⟨op, rfl, hroom⟩
    · obtain ⟨y, hy⟩ := Option.isSome_iff_exists.mp hn
      rw [runFrom_number (Token.ofText_of_number? hy)]
      exact runFrom_of_foldableAfter (hs.number hn y) h
    · have hp : p ≠ [] := fun heq => not_hasRoom_nil op (heq ▸ hroom)
      rw [runFrom_operator (Token.ofText_symbol op)]
      rcases hs.fold_total tolerance ((hs.hasRoom_iff op).mp hroom) with ⟨s', hf⟩ | ⟨hf, hd⟩
      · rw [hf, ok_bind]
        exact runFrom_of_foldableAfter (hs.operator hp hf) h
      · rw [hf, error_bind]
        exact Or.inr ⟨rfl, List.mem_append_left _ (List.mem_append_left _ hd)⟩

end Acceptance

/-! ### Infix expressions -/

namespace IsInfixExpression

theorem count : ∀ {tokens : List String}, IsInfixExpression tokens →
    tokens.countP Token.isNumber = tokens.countP Token.isOperator + 1
  | [], h => absurd h not_nil
  | [x], h => by simp [h.head, Token.isOperator_of_isNumber h.head]
  | x :: o :: ts, h => by
    obtain ⟨op, rfl⟩ := Token.isOperator_iff.mp h.second
    simp [h.head, Token.isOperator_of_isNumber h.head, h.tail.count]

/-- What precedes an operator is an infix expression. -/
theorem of_append {before after : List String} {op : Operator}
    (h : IsInfixExpression (before ++ op.symbol :: after)) : IsInfixExpression before := by
  obtain ⟨-, hi⟩ := h
  refine ⟨?_, fun i hlt => ?_⟩
  · have hop := hi before.length (by simp)
    rw [List.getElem_append_right (Nat.le_refl _)] at hop
    split at hop
    · simp at hop
    · omega
  · have := hi i (by simp; omega)
    rwa [List.getElem_append_left hlt] at this

theorem isFoldable {tokens : List String} (h : IsInfixExpression tokens) : IsFoldable tokens where
  read t ht := by
    obtain ⟨i, hlt, rfl⟩ := List.getElem_of_mem ht
    have := h.2 i hlt
    split at this
    · exact Or.inl this
    · exact Or.inr this
  room before op after heq := by
    have := (of_append (heq ▸ h)).count
    exact Or.inl (by omega)
  count := h.count
  last t ht := by
    obtain ⟨hl, hi⟩ := h
    have := hi (tokens.length - 1) (by omega)
    rw [if_pos (by omega)] at this
    rw [List.getLast?_eq_getElem?] at ht
    rw [List.getElem?_eq_getElem (by omega)] at ht
    obtain rfl := Option.mem_some.mp ht
    exact Token.isOperator_of_isNumber this

end IsInfixExpression

/-- A list is evaluated only if it can be folded. -/
theorem isFoldable_of_evaluate {settings : Settings} {tokens : List String} {x : Binary64}
    (h : evaluate settings tokens = .ok x) : IsFoldable tokens := by
  have hne : tokens ≠ [] := by
    rintro rfl
    cases h
  have hd : hasDanglingOperator tokens = false := by
    rw [← Bool.not_eq_true]
    intro hd
    unfold evaluate at h
    rw [if_neg (by simpa using hne), if_pos hd] at h
    cases h
  obtain ⟨hhead, hlast⟩ := hasDanglingOperator_eq_false_iff.mp hd
  rw [evaluate_eq_runFrom hne hd] at h
  obtain ⟨hread, hroom, hcount⟩ :=
    Acceptance.foldableAfter_of_runFrom Acceptance.reached_empty (fun _ => hhead) h
  exact ⟨hread, hroom, hcount, hlast⟩

/-- A list that can be folded is evaluated, unless a divisor is refused. -/
theorem evaluate_of_isFoldable {settings : Settings} {tokens : List String}
    (h : IsFoldable tokens) : (∃ x, evaluate settings tokens = .ok x) ∨
      evaluate settings tokens = .error .divisionByZero ∧ Operator.div.symbol ∈ tokens := by
  have hne : tokens ≠ [] := by
    rintro rfl
    cases h.count
  have hhead : ∀ t ∈ tokens.head?, Token.isOperator t = false := by
    intro t ht
    obtain ⟨ts, rfl⟩ := List.head?_eq_some_iff.mp ht
    rw [← Bool.not_eq_true]
    intro ho
    obtain ⟨op, rfl⟩ := Token.isOperator_iff.mp ho
    exact Acceptance.not_hasRoom_nil op (h.room [] op ts rfl)
  rw [evaluate_eq_runFrom hne (hasDanglingOperator_eq_false_iff.mpr ⟨hhead, h.last⟩)]
  exact Acceptance.runFrom_of_foldableAfter Acceptance.reached_empty ⟨h.read, h.room, h.count⟩

/-- **What is accepted.**  The lists that can be folded, among them the infix expressions, give a
value unless a divisor is refused; all others fail.  So a list gives a value only as an infix
expression exactly if it is one, or cannot be folded, or has a divisor refused. -/
theorem evaluate_only_infix_iff (settings : Settings) (tokens : List String) :
    (IsInfixExpression tokens → IsFoldable tokens) ∧
      (IsFoldable tokens → (∃ x, evaluate settings tokens = .ok x) ∨
        evaluate settings tokens = .error .divisionByZero ∧ "/" ∈ tokens) ∧
      (¬ IsFoldable tokens → ∃ fault, evaluate settings tokens = .error fault) ∧
      ((((∃ x, evaluate settings tokens = .ok x) → IsInfixExpression tokens) ∧
          (¬ IsInfixExpression tokens → ∃ fault, evaluate settings tokens = .error fault)) ↔
        IsInfixExpression tokens ∨ ¬ IsFoldable tokens ∨
          evaluate settings tokens = .error .divisionByZero) := by
  have hfail : ¬ IsFoldable tokens → ∃ fault, evaluate settings tokens = .error fault := by
    intro hf
    cases h : evaluate settings tokens with
    | ok x => exact absurd (isFoldable_of_evaluate h) hf
    | error fault => exact ⟨fault, rfl⟩
  refine ⟨IsInfixExpression.isFoldable, evaluate_of_isFoldable, hfail, ?_, ?_⟩
  · rintro ⟨honly, -⟩
    by_cases hf : IsFoldable tokens
    · rcases evaluate_of_isFoldable hf with hok | ⟨hdiv, -⟩
      · exact Or.inl (honly hok)
      · exact Or.inr (Or.inr hdiv)
    · exact Or.inr (Or.inl hf)
  · rintro (hi | hf | hdiv)
    · exact ⟨fun _ => hi, fun hn => absurd hi hn⟩
    · exact ⟨fun ⟨x, hx⟩ => absurd (isFoldable_of_evaluate hx) hf, fun _ => hfail hf⟩
    · refine ⟨fun ⟨x, hx⟩ => ?_, fun _ => ⟨_, hdiv⟩⟩
      rw [hdiv] at hx
      cases hx

/-- Two consecutive operators are accepted after two consecutive numbers. -/
theorem evaluate_consecutive_operators :
    (∃ x, evaluate .standard ["1", "2", "+", "+", "3"] = .ok x) ∧
      ¬ IsInfixExpression ["1", "2", "+", "+", "3"] :=
  ⟨⟨_, rfl⟩, by decide⟩

end Keypad
