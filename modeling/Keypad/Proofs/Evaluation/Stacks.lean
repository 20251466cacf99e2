import Keypad.Proofs.Chain

/-! # The two stacks

`runFrom` is the evaluation of the tokens still to be read, from any stacks on and for any reading
of tokens; `evaluate` is the case of empty stacks (`evaluate_eq_runFrom`).  Three facts about it are
used again and again:

* a number is pushed, an operator folds and is pushed (`runFrom_number`, `runFrom_operator`);
* an operator on top is applied at once if nothing that binds more tightly comes next
  (`runFrom_settle`);
* folding takes the operators of at least the given precedence from the top, each together with one
  operand (`fold_ok`), and it does not run out of operands if there is one more of them
  (`fold_total`).

An evaluation fails with a token that cannot be read, with an operation, or with operands missing or
left over (`runFrom_eq_error`). -/

namespace Keypad

variable {ε α β : Type}

@[simp] theorem ok_bind (a : α) (f : α → Except ε β) : (Except.ok a >>= f) = f a := rfl

@[simp] theorem error_bind (e : ε) (f : α → Except ε β) :
    ((Except.error e : Except ε α) >>= f) = .error e := rfl

theorem bind_eq_ok_iff {x : Except ε α} {f : α → Except ε β} {b : β} :
    x >>= f = .ok b ↔ ∃ a, x = .ok a ∧ f a = .ok b := by
  constructor
  · intro h
    cases x with
    | error e => cases h
    | ok a => exact ⟨a, rfl, h⟩
  · rintro ⟨a, rfl, h⟩
    exact h

theorem bind_eq_error_iff {x : Except ε α} {f : α → Except ε β} {e : ε} :
    x >>= f = .error e ↔ x = .error e ∨ ∃ a, x = .ok a ∧ f a = .error e := by
  cases x with
  | error e' => simp
  | ok a => simp

namespace Stacks

variable {α τ : Type} {read : τ → Except Fault (Token α)}
  {apply : Operator → α → α → Except Fault α}

/-! ### Folding -/

/-- Operators that bind less tightly stay. -/
theorem fold_of_lt {level : Nat} {xs : List α} {ops : List Operator}
    (h : ∀ op ∈ ops.head?, op.precedence < level) :
    fold apply level xs ops = .ok ⟨xs, ops⟩ := by
  cases ops with
  | nil => rw [fold]
  | cons op ops =>
    have hop := h op rfl
    rw [fold.eq_def]
    simp only [if_neg (Nat.not_le.mpr hop)]

/-- The topmost operator is applied to the two topmost operands. -/
theorem fold_cons {level : Nat} {a b : α} {xs : List α} {op : Operator} {ops : List Operator}
    (h : level ≤ op.precedence) : fold apply level (b :: a :: xs) (op :: ops) =
      apply op a b >>= fun c => fold apply level (c :: xs) ops := by
  rw [fold.eq_def]
  simp only [if_pos h]

/-- An operator that is to be applied to fewer than two operands is the failure. -/
theorem fold_of_few {level : Nat} {xs : List α} {op : Operator} {ops : List Operator}
    (h : level ≤ op.precedence) (hfew : xs.length < 2) :
    fold apply level xs (op :: ops) = .error (.missingOperand op.symbol) := by
  rcases xs with _ | ⟨b, _ | ⟨a, rest⟩⟩
  · rw [fold.eq_def]
    simp only [if_pos h]
  · rw [fold.eq_def]
    simp only [if_pos h]
  · simp only [List.length_cons] at hfew
    omega

/-- The operators that a fold leaves: those from the first that binds less tightly on. -/
def kept (level : Nat) (ops : List Operator) : List Operator :=
  ops.dropWhile fun op => level ≤ op.precedence

theorem kept_cons_of_le {level : Nat} {op : Operator} (ops : List Operator)
    (h : level ≤ op.precedence) : kept level (op :: ops) = kept level ops := by
  simp [kept, h]

theorem kept_cons_of_lt {level : Nat} {op : Operator} (ops : List Operator)
    (h : op.precedence < level) : kept level (op :: ops) = op :: ops := by
  simp [kept, Nat.not_le.mpr h]

theorem kept_zero : ∀ ops : List Operator, kept 0 ops = []
  | [] => rfl
  | _ :: ops => (kept_cons_of_le ops (Nat.zero_le _)).trans (kept_zero ops)

theorem kept_suffix (level : Nat) (ops : List Operator) : kept level ops <:+ ops :=
  List.dropWhile_suffix _

/-- A fold that succeeds has applied its topmost operator to the two topmost operands. -/
theorem fold_cons_eq_ok {level : Nat} {xs : List α} {op : Operator} {ops : List Operator}
    {s : Stacks α} (hle : level ≤ op.precedence) (h : fold apply level xs (op :: ops) = .ok s) :
    ∃ a b rest c, xs = b :: a :: rest ∧ apply op a b = .ok c ∧
      fold apply level (c :: rest) ops = .ok s := by
  match xs with
  | b :: a :: rest =>
    rw [fold_cons hle] at h
    obtain ⟨c, hc, h⟩ := bind_eq_ok_iff.mp h
    exact ⟨a, b, rest, c, rfl, hc, h⟩
  | [] =>
    rw [fold_of_few hle (by simp)] at h
    cases h
  | [_] =>
    rw [fold_of_few hle (by simp)] at h
    cases h

/-- **What a fold leaves**: the operators below the first that binds less tightly, with one operand
gone for every operator applied. -/
theorem fold_ok {level : Nat} : ∀ {ops : List Operator} {xs : List α} {s : Stacks α},
    fold apply level xs ops = .ok s →
      s.operators = kept level ops ∧
      s.operands.length + ops.length = xs.length + s.operators.length ∧
      (xs ≠ [] → s.operands ≠ [])
  | [], xs, s, h => by
    rw [fold] at h
    cases h
    exact ⟨rfl, rfl, id⟩
  | op :: ops, xs, s, h => by
    by_cases hle : level ≤ op.precedence
    · obtain ⟨a, b, rest, c, rfl, -, hs⟩ := fold_cons_eq_ok hle h
      obtain ⟨hops, hlen, hne⟩ := fold_ok hs
      refine ⟨?_, ?_, fun _ => hne (List.cons_ne_nil _ _)⟩
      · rw [hops, kept_cons_of_le ops hle]
      · simp only [List.length_cons] at hlen ⊢
        omega
    · have hlt : op.precedence < level := Nat.lt_of_not_le hle
      rw [fold_of_lt (by rintro o ⟨⟩; exact hlt)] at h
      cases h
      exact ⟨(kept_cons_of_lt ops hlt).symm, rfl, id⟩

/-- A fold with enough operands fails only if an operation does. -/
theorem fold_total {level : Nat} {P : Fault → Prop} : ∀ {ops : List Operator} {xs : List α},
    (∀ op ∈ ops, ∀ a b f, apply op a b = .error f → P f) →
    ops.length < xs.length + (kept level ops).length →
      (∃ s, fold apply level xs ops = .ok s) ∨ ∃ f, fold apply level xs ops = .error f ∧ P f
  | [], xs, _, _ => Or.inl ⟨⟨xs, []⟩, by rw [fold]⟩
  | op :: ops, xs, hP, hlen => by
    by_cases hle : level ≤ op.precedence
    · rw [kept_cons_of_le ops hle, List.length_cons] at hlen
      have hdrop := (kept_suffix level ops).length_le
      match xs with
      | [] => simp at hlen; omega
      | [_] => simp at hlen; omega
      | b :: a :: rest =>
        rw [fold_cons hle]
        cases hc : apply op a b with
        | error f => exact Or.inr ⟨f, rfl, hP op List.mem_cons_self a b f hc⟩
        | ok c =>
          exact fold_total (fun o ho => hP o (List.mem_cons_of_mem _ ho))
            (by simp only [List.length_cons] at hlen ⊢; omega)
    · exact Or.inl ⟨_, fold_of_lt (by rintro o ⟨⟩; exact Nat.lt_of_not_le hle)⟩

/-- A fold fails with an operation or for want of an operand. -/
theorem fold_eq_error {P : Fault → Prop} (happly : ∀ op a b f, apply op a b = .error f → P f)
    (hmissing : ∀ symbol, P (.missingOperand symbol)) {level : Nat} {fault : Fault} :
    ∀ {ops : List Operator} {xs : List α}, fold apply level xs ops = .error fault → P fault
  | [], xs, h => by
    rw [fold] at h
    cases h
  | op :: ops, xs, h => by
    by_cases hle : level ≤ op.precedence
    · match xs with
      | b :: a :: rest =>
        rw [fold_cons hle] at h
        rcases bind_eq_error_iff.mp h with hop | ⟨c, -, hrest⟩
        · exact happly op a b fault hop
        · exact fold_eq_error happly hmissing hrest
      | [] =>
        rw [fold_of_few hle (by simp)] at h
        exact Except.error.inj h ▸ hmissing op.symbol
      | [_] =>
        rw [fold_of_few hle (by simp)] at h
        exact Except.error.inj h ▸ hmissing op.symbol
    · rw [fold_of_lt (by rintro o ⟨⟩; exact Nat.lt_of_not_le hle)] at h
      cases h

/-! ### Ordered operators -/

/-- Every operator binds more tightly than those below it. -/
def Ordered (ops : List Operator) : Prop :=
  ops.Pairwise fun above below => below.precedence < above.precedence

theorem precedence_lt_of_mem_kept {level : Nat} {o : Operator} : ∀ {ops : List Operator},
    Ordered ops → o ∈ kept level ops → o.precedence < level
  | [], _, ho => by cases ho
  | op :: ops, h, ho => by
    obtain ⟨hop, hops⟩ := List.pairwise_cons.mp h
    by_cases hle : level ≤ op.precedence
    · rw [kept_cons_of_le ops hle] at ho
      exact precedence_lt_of_mem_kept hops ho
    · rw [kept_cons_of_lt ops (Nat.lt_of_not_le hle)] at ho
      rcases List.mem_cons.mp ho with rfl | ho
      · exact Nat.lt_of_not_le hle
      · have := hop o ho
        omega

/-- An operator that binds less tightly is kept. -/
theorem mem_kept {level : Nat} {o : Operator} (hlt : o.precedence < level) :
    ∀ {ops : List Operator}, o ∈ ops → o ∈ kept level ops
  | op :: ops, ho => by
    by_cases hle : level ≤ op.precedence
    · rw [kept_cons_of_le ops hle]
      rcases List.mem_cons.mp ho with rfl | ho
      · omega
      · exact mem_kept hlt ho
    · rwa [kept_cons_of_lt ops (Nat.lt_of_not_le hle)]

/-- An incoming operator keeps the order. -/
theorem Ordered.cons_kept {ops : List Operator} (h : Ordered ops) (op : Operator) :
    Ordered (op :: kept op.precedence ops) :=
  List.pairwise_cons.mpr ⟨fun _ ho => precedence_lt_of_mem_kept h ho,
    List.Pairwise.sublist (kept_suffix _ _).sublist h⟩

/-- No operator stays below an incoming sum. -/
theorem Ordered.kept_one {ops : List Operator} (h : Ordered ops) : kept 1 ops = [] := by
  refine List.eq_nil_iff_forall_not_mem.mpr fun o ho => ?_
  have := precedence_lt_of_mem_kept h ho
  have := o.precedence_eq_one_or_two
  omega

/-- At most a sum stays below an incoming product. -/
theorem Ordered.kept_two {ops : List Operator} (h : Ordered ops) :
    kept 2 ops = [] ∨ ∃ o : Operator, o.precedence = 1 ∧ kept 2 ops = [o] := by
  have hlt : ∀ o ∈ kept 2 ops, o.precedence < 2 := fun o ho => precedence_lt_of_mem_kept h ho
  have hord : Ordered (kept 2 ops) := List.Pairwise.sublist (kept_suffix _ _).sublist h
  match hk : kept 2 ops with
  | [] => exact Or.inl rfl
  | [o] =>
    have := hlt o (by simp [hk])
    have := o.precedence_eq_one_or_two
    exact Or.inr ⟨o, by omega, rfl⟩
  | o :: o' :: _ =>
    rw [hk] at hord
    have := (List.pairwise_cons.mp hord).1 o' (by simp)
    have := hlt o (by simp [hk])
    have := o'.precedence_eq_one_or_two
    omega

/-! ### Runs -/

/-- The value of the tokens still to be read, from given stacks on. -/
def runFrom (read : τ → Except Fault (Token α)) (apply : Operator → α → α → Except Fault α)
    (s : Stacks α) (tokens : List τ) : Except Fault α := do
  let s ← tokens.foldlM (fun s t => read t >>= s.push apply) s
  s.finish apply

theorem runFrom_nil (s : Stacks α) : runFrom read apply s [] = s.finish apply := rfl

theorem runFrom_cons (s : Stacks α) (t : τ) (ts : List τ) : runFrom read apply s (t :: ts) =
    read t >>= fun m => s.push apply m >>= fun s => runFrom read apply s ts := by
  simp only [runFrom, List.foldlM_cons, bind_assoc]

theorem runFrom_error {s : Stacks α} {t : τ} {ts : List τ} {fault : Fault}
    (h : read t = .error fault) : runFrom read apply s (t :: ts) = .error fault := by
  rw [runFrom_cons, h, error_bind]

theorem runFrom_number {xs : List α} {ops : List Operator} {t : τ} {ts : List τ} {x : α}
    (h : read t = .ok (.number x)) :
    runFrom read apply ⟨xs, ops⟩ (t :: ts) = runFrom read apply ⟨x :: xs, ops⟩ ts := by
  rw [runFrom_cons, h, ok_bind]
  rfl

theorem runFrom_operator {xs : List α} {ops : List Operator} {t : τ} {ts : List τ} {op : Operator}
    (h : read t = .ok (.operator op)) : runFrom read apply ⟨xs, ops⟩ (t :: ts) =
      fold apply op.precedence xs ops >>= fun s =>
        runFrom read apply ⟨s.operands, op :: s.operators⟩ ts := by
  rw [runFrom_cons, h, ok_bind]
  simp only [push, bind_assoc]
  rfl

/-- **What a run fails with**: a token that cannot be read, an operation, or operands that are
missing or left over. -/
theorem runFrom_eq_error {P : Fault → Prop} {ts : List τ} {s : Stacks α} {fault : Fault}
    (hread : ∀ t ∈ ts, ∀ f, read t = .error f → P f)
    (happly : ∀ op a b f, apply op a b = .error f → P f)
    (hmissing : ∀ symbol, P (.missingOperand symbol)) (hleft : ∀ n, P (.leftoverOperands n))
    (h : runFrom read apply s ts = .error fault) : P fault := by
  induction ts generalizing s with
  | nil =>
    rw [runFrom_nil, finish] at h
    rcases bind_eq_error_iff.mp h with hfold | ⟨r, -, hr⟩
    · exact fold_eq_error happly hmissing hfold
    · split at hr
      · cases hr
      · exact Except.error.inj hr ▸ hleft _
  | cons t ts ih =>
    obtain ⟨ht, hts⟩ := List.forall_mem_cons.mp hread
    rw [runFrom_cons] at h
    rcases bind_eq_error_iff.mp h with hfail | ⟨m, -, hm⟩
    · exact ht fault hfail
    rcases bind_eq_error_iff.mp hm with hpush | ⟨r, -, hr⟩
    · cases m with
      | number x => cases hpush
      | operator op =>
        rcases bind_eq_error_iff.mp hpush with hfold | ⟨r, -, hr⟩
        · exact fold_eq_error happly hmissing hfold
        · cases hr
    · exact ih hts hr

/-- The next token is an operator that does not bind more tightly than `level`, or there is none. -/
def NextWithin (read : τ → Except Fault (Token α)) (level : Nat) (ts : List τ) : Prop :=
  ∀ t ∈ ts.head?, ∃ op : Operator, read t = .ok (.operator op) ∧ op.precedence ≤ level

theorem NextWithin.mono {level level' : Nat} {ts : List τ} (h : NextWithin read level ts)
    (hle : level ≤ level') : NextWithin read level' ts := by
  intro t ht
  obtain ⟨op, hop, hp⟩ := h t ht
  exact ⟨op, hop, Nat.le_trans hp hle⟩

theorem nextWithin_nil {level : Nat} : NextWithin read level [] := by
  intro t ht
  cases ht

/-- The links of a chain begin with an operator. -/
theorem nextWithin_writeLinks {β : Type} {sym : Operator → τ} {txt : β → τ}
    (hsym : ∀ op, read (sym op) = .ok (.operator op)) {level : Nat} {links : List (Operator × β)}
    {ts : List τ} (hlinks : ∀ p ∈ links.head?, p.1.precedence ≤ level)
    (hts : NextWithin read level ts) :
    NextWithin read level (Chain.writeLinks sym txt links ++ ts) := by
  cases links with
  | nil => exact hts
  | cons p links =>
    rintro t ⟨⟩
    exact ⟨p.1, hsym _, hlinks p rfl⟩

/-- **Settling**: an operator on top is applied first if nothing binding more tightly follows. -/
theorem runFrom_settle {a b : α} {xs : List α} {op : Operator} {ops : List Operator} {ts : List τ}
    (h : NextWithin read op.precedence ts) : runFrom read apply ⟨b :: a :: xs, op :: ops⟩ ts =
      apply op a b >>= fun c => runFrom read apply ⟨c :: xs, ops⟩ ts := by
  cases ts with
  | nil =>
    simp only [runFrom_nil, finish]
    rw [fold_cons (Nat.zero_le _), bind_assoc]
  | cons t ts =>
    obtain ⟨op', ht, hle⟩ := h t rfl
    simp only [runFrom_operator ht]
    rw [fold_cons hle, bind_assoc]

end Stacks

/-- The evaluation of a list that does not begin or end with an operator. -/
theorem evaluate_eq_runFrom {settings : Settings} {tokens : List String} (hne : tokens ≠ [])
    (hd : hasDanglingOperator tokens = false) : evaluate settings tokens =
      Stacks.runFrom Token.ofText (Operator.apply settings.zeroTolerance) .empty tokens := by
  unfold evaluate
  rw [if_neg (by simpa using hne), if_neg (by simp [hd])]
  rfl

/-- The value of a single number. -/
theorem evaluate_number {settings : Settings} {t : String} {x : Binary64}
    (h : Token.number? t = some x) : evaluate settings [t] = .ok x := by
  have ho : Token.isOperator t = false := Token.isOperator_of_isNumber (by simp [Token.isNumber, h])
  have hd : hasDanglingOperator [t] = false := by simp [hasDanglingOperator, ho]
  rw [evaluate_eq_runFrom (by simp) hd, Stacks.empty,
    Stacks.runFrom_number (Token.ofText_of_number? h)]
  rfl

/-- The value of an operator between two numbers. -/
theorem evaluate_operator {settings : Settings} {t u : String} {x y : Binary64}
    (hx : Token.number? t = some x) (hy : Token.number? u = some y) (op : Operator) :
    evaluate settings [t, op.symbol, u] = op.apply settings.zeroTolerance x y := by
  have ht : Token.isOperator t = false :=
    Token.isOperator_of_isNumber (by simp [Token.isNumber, hx])
  have hu : Token.isOperator u = false :=
    Token.isOperator_of_isNumber (by simp [Token.isNumber, hy])
  have hd : hasDanglingOperator [t, op.symbol, u] = false := by simp [hasDanglingOperator, ht, hu]
  rw [evaluate_eq_runFrom (by simp) hd, Stacks.empty,
    Stacks.runFrom_number (Token.ofText_of_number? hx),
    Stacks.runFrom_operator (Token.ofText_symbol op), Stacks.fold, ok_bind,
    Stacks.runFrom_number (Token.ofText_of_number? hy),
    Stacks.runFrom_settle Stacks.nextWithin_nil]
  cases op.apply settings.zeroTolerance x y with
  | error fault => rfl
  | ok z => rfl

/-- What does not begin with a number has no value. -/
theorem evaluate_of_not_isNumber (settings : Settings) {t : String} (ts : List String)
    (h : Token.isNumber t = false) : ∃ fault, evaluate settings (t :: ts) = .error fault := by
  cases hd : hasDanglingOperator (t :: ts) with
  | true =>
    refine ⟨.danglingOperator (t :: ts), ?_⟩
    unfold evaluate
    rw [if_neg (by simp), if_pos hd]
  | false =>
    rw [evaluate_eq_runFrom (by simp) hd]
    rcases Token.kinds t with ⟨x, hx⟩ | ⟨op, rfl⟩ | ⟨hn, ho⟩
    · simp [Token.isNumber, hx] at h
    · simp [hasDanglingOperator] at hd
    · exact ⟨_, Stacks.runFrom_error (Token.ofText_of_number?_eq_none hn ho)⟩

/-! ### Malformed numbers -/

/-- A malformed number that is reported is one of the tokens. -/
theorem of_evaluate_eq_malformedNumber {settings : Settings} {tokens : List String} {t : String}
    (h : evaluate settings tokens = .error (.malformedNumber t)) :
    t ∈ tokens ∧ Token.looksNumeric t = true ∧ Token.isNumber t = false := by
  unfold evaluate at h
  split at h
  · cases h
  split at h
  · cases h
  refine Stacks.runFrom_eq_error (P := fun f => f = .malformedNumber t →
    t ∈ tokens ∧ Token.looksNumeric t = true ∧ Token.isNumber t = false) ?_ ?_ nofun nofun h rfl
  · rintro u hu _ hread rfl
    obtain ⟨rfl, hmalformed⟩ := Token.ofText_eq_malformedNumber_iff.mp hread
    exact ⟨hu, hmalformed⟩
  · rintro op a b _ happly rfl
    cases (Operator.eq_of_apply_eq_error happly).2

/-- **Which tokens can be reported as malformed numbers**: the texts of digits and points that are
no numbers. -/
theorem exists_evaluate_eq_malformedNumber_iff {settings : Settings} {t : String} :
    (∃ tokens, evaluate settings tokens = .error (.malformedNumber t)) ↔
      Token.looksNumeric t = true ∧ Token.isNumber t = false := by
  constructor
  · rintro ⟨tokens, h⟩
    exact (of_evaluate_eq_malformedNumber h).2
  · intro hmalformed
    have ho := Token.isOperator_of_looksNumeric hmalformed.1
    have hd : hasDanglingOperator [t] = false := by simp [hasDanglingOperator, ho]
    refine ⟨[t], ?_⟩
    rw [evaluate_eq_runFrom (by simp) hd]
    exact Stacks.runFrom_error (Token.ofText_eq_malformedNumber_iff.mpr ⟨rfl, hmalformed⟩)

end Keypad
