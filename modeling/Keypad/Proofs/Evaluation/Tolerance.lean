import Keypad.Proofs.Binary64.Divisor
import Keypad.Proofs.Evaluation.Stacks

/-! # Two tolerances

Of two tolerances the larger one refuses more divisors (`IsRefusedDivisor.mono`), and the tolerance
decides nothing else.  So two evaluations of the same tokens under different tolerances go through
the same stacks until one of them refuses a divisor that the other one takes.

`AgreeUnless fault x y` is the order in which `fault` lies below everything else: `y` is `x`, or it
ends with the fault.  Sequences of steps keep it (`AgreeUnless.bind`, `AgreeUnless.foldlM`), so it
passes from one operation to a fold, from there to the reading of a token, and at last to the whole
evaluation (`evaluate_of_tolerance_le`). -/

namespace Keypad

/-! ### Agreeing but for a fault -/

section AgreeUnless

variable {ε α β τ : Type} {fault : ε}

/-- The second computation ends with the fault, or both end alike. -/
def AgreeUnless (fault : ε) (x y : Except ε α) : Prop := y = .error fault ∨ x = y

theorem AgreeUnless.refl (x : Except ε α) : AgreeUnless fault x x := Or.inr rfl

theorem AgreeUnless.bind {x y : Except ε α} {f g : α → Except ε β} (h : AgreeUnless fault x y)
    (hf : ∀ a, AgreeUnless fault (f a) (g a)) : AgreeUnless fault (x >>= f) (y >>= g) := by
  rcases h with rfl | rfl
  · exact Or.inl rfl
  · cases x with
    | error e => exact .refl _
    | ok a => exact hf a

theorem AgreeUnless.foldlM {f g : α → τ → Except ε α}
    (h : ∀ a t, AgreeUnless fault (f a t) (g a t)) (ts : List τ) (a : α) :
    AgreeUnless fault (ts.foldlM f a) (ts.foldlM g a) := by
  induction ts generalizing a with
  | nil => exact .refl _
  | cons t ts ih =>
    rw [List.foldlM_cons, List.foldlM_cons]
    exact (h a t).bind ih

end AgreeUnless

/-! ### Stacks -/

namespace Stacks

variable {α τ : Type} {fault : Fault} {f g : Operator → α → α → Except Fault α}

/-- A fold applies the same operators to the same operands. -/
theorem agreeUnless_fold (h : ∀ op a b, AgreeUnless fault (f op a b) (g op a b)) (level : Nat)
    (ops : List Operator) (xs : List α) :
    AgreeUnless fault (fold f level xs ops) (fold g level xs ops) := by
  induction ops generalizing xs with
  | nil =>
    rw [fold, fold]
    exact .refl _
  | cons op ops ih =>
    by_cases hle : level ≤ op.precedence
    · rcases xs with _ | ⟨b, _ | ⟨a, rest⟩⟩
      -- with fewer than two operands both folds end with the same fault
      · rw [fold.eq_def, fold.eq_def]
        exact .refl _
      · rw [fold.eq_def, fold.eq_def]
        exact .refl _
      · rw [fold_cons hle, fold_cons hle]
        exact (h op a b).bind fun c => ih (c :: rest)
    · have hlt : ∀ o ∈ (op :: ops).head?, o.precedence < level := by
        rintro o ⟨⟩
        exact Nat.lt_of_not_le hle
      rw [fold_of_lt hlt, fold_of_lt hlt]
      exact .refl _

theorem agreeUnless_push (h : ∀ op a b, AgreeUnless fault (f op a b) (g op a b)) (s : Stacks α)
    (t : Token α) : AgreeUnless fault (s.push f t) (s.push g t) := by
  cases t with
  | number x => exact .refl _
  | operator op =>
    exact (agreeUnless_fold h op.precedence s.operators s.operands).bind fun _ => .refl _

theorem agreeUnless_finish (h : ∀ op a b, AgreeUnless fault (f op a b) (g op a b))
    (s : Stacks α) : AgreeUnless fault (s.finish f) (s.finish g) :=
  (agreeUnless_fold h 0 s.operators s.operands).bind fun _ => .refl _

/-- **A run** reads the same tokens with the same stacks. -/
theorem agreeUnless_runFrom (h : ∀ op a b, AgreeUnless fault (f op a b) (g op a b))
    (read : τ → Except Fault (Token α)) (s : Stacks α) (tokens : List τ) :
    AgreeUnless fault (runFrom read f s tokens) (runFrom read g s tokens) := by
  have hstep : ∀ (s : Stacks α) (t : τ),
      AgreeUnless fault (read t >>= s.push f) (read t >>= s.push g) := fun s t =>
    (AgreeUnless.refl (read t)).bind (agreeUnless_push h s)
  exact (AgreeUnless.foldlM hstep tokens s).bind (agreeUnless_finish h)

end Stacks

/-! ### Tolerances -/

namespace Binary64

theorem le_trans {x y z : Binary64} (hxy : x ≤ y) (hyz : y ≤ z) : x ≤ z := by
  replace hxy : x.le y = true := hxy
  replace hyz : y.le z = true := hyz
  show x.le z = true
  cases x <;> cases y <;> cases z <;> grind [Binary64.le]

end Binary64

/-- A larger tolerance refuses every divisor that a smaller one refuses. -/
theorem IsRefusedDivisor.mono {t u x : Binary64} (hle : t ≤ u) (h : IsRefusedDivisor t x) :
    IsRefusedDivisor u x := by
  rcases h with hzero | ⟨hfinite, hx⟩
  · exact Or.inl hzero
  · exact Or.inr ⟨hfinite, Binary64.le_trans hx hle⟩

/-- One operation under two tolerances. -/
theorem Operator.agreeUnless_apply {t u : Binary64} (hle : t ≤ u) (op : Operator)
    (a b : Binary64) : AgreeUnless .divisionByZero (op.apply t a b) (op.apply u a b) := by
  by_cases hdiv : op = .div
  · subst hdiv
    cases hu : isZeroDivisor u b with
    | true => exact Or.inl (apply_div_eq_error hu a)
    | false =>
      have ht : isZeroDivisor t b = false := by
        rw [← Bool.not_eq_true, isZeroDivisor_iff] at hu ⊢
        exact mt (IsRefusedDivisor.mono hle) hu
      rw [apply_eq_ok (fun _ => hu), apply_eq_ok (fun _ => ht)]
      exact .refl _
  · rw [apply_eq_ok (absurd · hdiv), apply_eq_ok (absurd · hdiv)]
    exact .refl _

/-- **A larger tolerance only adds divisions by zero.**  If the tolerance of the second settings is
not smaller, then under them every list of tokens ends with a division by zero, or it ends as under
the first settings: with the same value or with the same fault and so with the same message. -/
theorem evaluate_of_tolerance_le {s t : Settings} (h : s.zeroTolerance ≤ t.zeroTolerance)
    (tokens : List String) :
    evaluate t tokens = .error .divisionByZero ∨ evaluate s tokens = evaluate t tokens := by
  by_cases hnil : tokens = []
  · subst hnil
    exact Or.inr rfl
  · cases hdangling : hasDanglingOperator tokens with
    | true =>
      have heval : ∀ r : Settings, evaluate r tokens = .error (.danglingOperator tokens) := by
        intro r
        unfold evaluate
        rw [if_neg (by simpa using hnil), if_pos hdangling]
      rw [heval, heval]
      exact Or.inr rfl
    | false =>
      rw [evaluate_eq_runFrom hnil hdangling, evaluate_eq_runFrom hnil hdangling]
      exact Stacks.agreeUnless_runFrom (Operator.agreeUnless_apply h) _ _ _

/-- With a tolerance of one hundredth a thousandth is refused as a divisor. -/
theorem evaluate_of_tolerance_le_hundredth :
    let coarse : Settings := { Settings.standard with
      zeroTolerance := .ofDecimal false ⟨1, -2⟩
      zero_le_zeroTolerance := by decide +kernel }
    let tokens := ["6", "-", "1", "/", "0.001"]
    Settings.standard.zeroTolerance ≤ coarse.zeroTolerance ∧
      (evaluate .standard tokens).toOption = some (.ofDecimal true ⟨994, 0⟩) ∧
      evaluate coarse tokens = .error .divisionByZero := by
  intro coarse tokens
  have hle : Settings.standard.zeroTolerance ≤ coarse.zeroTolerance := by decide +kernel
  have hvalue : (evaluate .standard tokens).toOption = some (.ofDecimal true ⟨994, 0⟩) := by
    decide +kernel
  have hnone : (evaluate coarse tokens).toOption = none := by decide +kernel
  refine ⟨hle, hvalue, (evaluate_of_tolerance_le hle tokens).resolve_right fun hsame => ?_⟩
  rw [hsame, hnone] at hvalue
  cases hvalue

end Keypad
