import Keypad.Operator
import Keypad.Proofs.Binary64.Rounding

/-! # Divisors that count as zero

A divisor is compared with zero by a relative and an absolute tolerance.  The relative one never
counts: a fraction of a positive number is less than the number, and up to a quarter so is what it
rounds to.  What is left is the absolute one (`isClose_zero_iff`, `isZeroDivisor_iff`). -/

namespace Keypad

/-- Whether a divisor is zero, or finite and not farther from zero than the tolerance. -/
def IsRefusedDivisor (tolerance x : Binary64) : Prop :=
  (∃ s, x = .zero s) ∨ (∃ s m, x = .finite s m) ∧ x.abs ≤ tolerance

namespace Binary64

theorem finite_eq_zero {s : Bool} {m : Magnitude} (h : m.units = 0) : finite s m = zero s := by
  cases m
  cases h
  rfl

theorem finite_mul_finite (s t : Bool) (a b : Magnitude) :
    finite s a * finite t b = ofQuotient (s ^^ t) (a.units * b.units) unitsPerOne := by
  show mul (finite s a) (finite t b) = _
  rw [mul]

theorem sameValue_zero {s : Bool} {m : Magnitude} :
    (finite s m).sameValue (zero false) = decide (m.units = 0) := by
  rw [Bool.eq_iff_iff]
  simp only [sameValue, Binary64.le, zero, signedUnits, Bool.and_eq_true, decide_eq_true_eq]
  split <;> omega

/-- The distance of a number from zero is its magnitude. -/
theorem abs_zero_sub {s : Bool} {m : Magnitude} (h : m.units ≠ 0) :
    abs (zero false - finite s m) = finite false m := by
  have hpos : 0 < m.units := Nat.pos_of_ne_zero h
  have hexact : zero false - finite s m = finite (!s) m := by
    show add (zero false) (finite (!s) m) = _
    cases s <;> simp [add, zero, hpos, ofQuotient_units]
  rw [hexact]
  rfl

section Relative

variable {r : Magnitude} (hquarter : 4 * r.units ≤ unitsPerOne)
include hquarter

/-- A relative tolerance of at most a quarter reaches less than every positive number that is not
smaller. -/
theorem le_relative_mul {s : Bool} {m n : Magnitude} (hpos : 0 < m.units)
    (hle : n.units ≤ m.units) :
    (finite false m).le (abs (finite false r * finite s n)) = false := by
  have hlt : roundUnits (r.units * n.units) unitsPerOne < m.units := by
    refine roundUnits_lt unitsPerOne_pos hpos ?_
    rw [← Nat.mul_assoc]
    exact Nat.mul_le_mul hquarter hle
  rw [finite_mul_finite, ofQuotient_of_lt (Nat.lt_trans hlt m.bounded)]
  simp only [Binary64.abs, Binary64.le, signedUnits, Bool.false_eq_true, if_false]
  exact decide_eq_false (by omega)

theorem isClose_zero_finite {tolerance : Binary64} {s : Bool} {m : Magnitude} (h : m.units ≠ 0) :
    (finite s m).isClose (zero false) (finite false r) tolerance =
      (finite false m).le tolerance := by
  have hpos : 0 < m.units := Nat.pos_of_ne_zero h
  have hzero : (finite false m).le (abs (finite false r * zero false)) = false :=
    le_relative_mul hquarter hpos (Nat.zero_le _)
  unfold isClose
  dsimp only
  rw [sameValue_zero, abs_zero_sub h, hzero, le_relative_mul hquarter hpos (Nat.le_refl _)]
  simp [h, isInfinite, zero]

/-- **Close to zero** is zero and what the absolute tolerance reaches, whatever the relative
tolerance up to a quarter. -/
theorem isClose_zero_iff {tolerance x : Binary64} :
    x.isClose (zero false) (finite false r) tolerance = true ↔ IsRefusedDivisor tolerance x := by
  unfold IsRefusedDivisor
  match x with
  | .nan =>
    have hclose : nan.isClose (zero false) (finite false r) tolerance = false := by
      have hdistance : abs (zero false - nan) = nan := rfl
      unfold isClose
      rw [hdistance]
      rfl
    rw [hclose]
    simp [zero]
  | .infinite s =>
    have hclose : (infinite s).isClose (zero false) (finite false r) tolerance = false := by
      cases s <;> rfl
    rw [hclose]
    simp [zero]
  | .finite s m =>
    by_cases h : m.units = 0
    · have hclose : (finite s m).isClose (zero false) (finite false r) tolerance = true := by
        unfold isClose
        rw [sameValue_zero, if_pos (by simpa using h)]
      exact ⟨fun _ => Or.inl ⟨s, finite_eq_zero h⟩, fun _ => hclose⟩
    · rw [isClose_zero_finite hquarter h]
      constructor
      · exact fun hle => Or.inr ⟨⟨s, m, rfl⟩, hle⟩
      · rintro (⟨t, ht⟩ | ⟨-, hle⟩)
        · cases ht
          exact absurd rfl h
        · exact hle

end Relative

end Binary64

namespace Operator

open Binary64

/-- The relative tolerance is a fraction of one. -/
theorem exists_relativeTolerance : ∃ r : Magnitude,
    relativeTolerance = .finite false r ∧ 4 * r.units ≤ unitsPerOne := by
  have hlt : roundUnits (1 * unitsPerOne) (10 ^ 9) < unitLimit := by decide +kernel
  have heq : relativeTolerance = ofQuotient false (1 * unitsPerOne) (10 ^ 9) := by
    unfold relativeTolerance ofDecimal
    rw [if_neg (by decide), if_neg (by decide), if_neg (by decide), if_pos (by decide)]
    simp only [show Int.natAbs (-9) = 9 from rfl]
  have hle : 4 * roundUnits (1 * unitsPerOne) (10 ^ 9) ≤ unitsPerOne := by decide +kernel
  rw [heq, ofQuotient_of_lt hlt]
  exact ⟨_, rfl, hle⟩

/-- **Division refuses zero and what the absolute tolerance reaches**, nothing else. -/
theorem isZeroDivisor_iff {tolerance x : Binary64} :
    isZeroDivisor tolerance x = true ↔ IsRefusedDivisor tolerance x := by
  obtain ⟨r, hr, hquarter⟩ := exists_relativeTolerance
  rw [isZeroDivisor, hr]
  exact isClose_zero_iff hquarter

end Operator

instance (tolerance x : Binary64) : Decidable (IsRefusedDivisor tolerance x) :=
  decidable_of_iff _ Operator.isZeroDivisor_iff

end Keypad
