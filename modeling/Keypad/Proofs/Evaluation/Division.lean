import Keypad.Proofs.Evaluation.Checked

/-! # Division

A division is refused if and only if the divisor is zero, or finite and not farther from zero than
the tolerance; every other division has the quotient as its value (`division_refused_iff`).  The
tolerance may be infinite, the operands may be any numbers, and neither a negative tolerance nor a
division by zero is ever met. -/

namespace Keypad

namespace Operator

/-- The relative tolerance of the comparison with zero may as well be none. -/
theorem isZeroDivisor_eq_isClose (tolerance b : Binary64) :
    isZeroDivisor tolerance b = b.isClose (.zero false) (.zero false) tolerance := by
  have hnone : 4 * 0 ≤ unitsPerOne := Nat.zero_le _
  rw [Bool.eq_iff_iff, isZeroDivisor_iff]
  exact (Binary64.isClose_zero_iff hnone).symm

/-- An operator given by its text, under a tolerance that is not negative. -/
theorem applySymbol_symbol {tolerance : Binary64} (h : Binary64.zero false ≤ tolerance)
    (op : Operator) (a b : Binary64) :
    applySymbol op.symbol tolerance a b = (op.apply tolerance a b).mapError .fault := by
  have hop : ofSymbol op.symbol = .ok op := by rw [ofSymbol, ofSymbol?_symbol]
  unfold applySymbol
  rw [hop]
  show (if op = .div && tolerance.isNegative then _ else _) = _
  rw [Checked.isNegative_eq_false h, Bool.and_false, if_neg (by decide)]

end Operator

namespace Checked

/-- **A division is refused for zero and for the divisors within the absolute tolerance**, whatever
the dividend.  Every other division has the quotient as its value, and no check but that of the
divisor ever breaks off.  Without the relative tolerance the same divisors are refused. -/
theorem division_refused_iff {tolerance : Binary64} (h : Binary64.zero false ≤ tolerance)
    (a b : Binary64) :
    (apply tolerance "/" a b = .error (.fault .divisionByZero) ↔ IsRefusedDivisor tolerance b) ∧
      (¬ IsRefusedDivisor tolerance b → apply tolerance "/" a b = .ok (a / b)) ∧
      Operator.applySymbol "/" tolerance a b =
        (if IsRefusedDivisor tolerance b then .error (.fault .divisionByZero) else .ok (a / b)) ∧
      Operator.isZeroDivisor tolerance b = b.isClose (.zero false) (.zero false) tolerance := by
  have hchecked : apply tolerance "/" a b = lift id (Operator.apply tolerance .div a b) :=
    apply_symbol h .div a b
  have hsymbol : Operator.applySymbol "/" tolerance a b =
      (Operator.apply tolerance .div a b).mapError .fault :=
    Operator.applySymbol_symbol h .div a b
  have hrelative := Operator.isZeroDivisor_eq_isClose tolerance b
  by_cases hrefused : IsRefusedDivisor tolerance b
  · have happly := Operator.apply_div_eq_error (Operator.isZeroDivisor_iff.mpr hrefused) a
    rw [happly] at hchecked hsymbol
    rw [hchecked, hsymbol, if_pos hrefused]
    exact ⟨iff_of_true rfl hrefused, fun hnot => absurd hrefused hnot, rfl, hrelative⟩
  · have hnot : Operator.isZeroDivisor tolerance b = false := by
      rwa [← Bool.not_eq_true, Operator.isZeroDivisor_iff]
    have happly : Operator.apply tolerance .div a b = .ok (a / b) :=
      Operator.apply_eq_ok (fun _ => hnot) a
    rw [happly] at hchecked hsymbol
    rw [hchecked, hsymbol, if_neg hrefused]
    exact ⟨iff_of_false nofun hrefused, fun _ => rfl, rfl, hrelative⟩

/-- Under an infinite tolerance the largest number is refused, an infinity is not. -/
theorem division_refused_infinite_tolerance :
    let one := Binary64.ofDecimal false ⟨1, 0⟩
    let largest := Binary64.ofDecimal true ⟨17976931348623157, 292⟩
    Binary64.zero false ≤ .infinite false ∧
      apply (.infinite false) "/" one largest = .error (.fault .divisionByZero) ∧
      apply (.infinite false) "/" one (.infinite true) = .ok (.zero true) := by
  intro one largest
  have hle : Binary64.zero false ≤ .infinite false := by decide
  have hlargest : IsRefusedDivisor (.infinite false) largest := by decide +kernel
  have hinfinite : ¬ IsRefusedDivisor (.infinite false) (.infinite true) := by decide +kernel
  have hquotient : one / .infinite true = .zero true := by decide +kernel
  refine ⟨hle, (division_refused_iff hle one largest).1.mpr hlargest, ?_⟩
  rw [← hquotient]
  exact (division_refused_iff hle one (.infinite true)).2.1 hinfinite

end Checked

end Keypad
