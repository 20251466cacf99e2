import Keypad.Proofs.Binary64.Display

/-! # Whole numbers

A whole number below `2 ^ 53` is displayed by the text of the integer, whatever the count of digits
(`display_eq_toString`), and this text is read as the number again (`number?_toString`); only
negative zero is displayed and read without its sign. -/

namespace Keypad

namespace Binary64

variable {x : Binary64} {z : ℤ}

/-- The number that a finite binary64 number stands for; both zeros stand for zero. -/
def value? : Binary64 → Option ℚ
  | .finite negative m => some (if negative then -m.value else m.value)
  | _ => none

/-- The number with the same value, zero without its sign. -/
def withoutZeroSign (x : Binary64) : Binary64 := if x = .zero true then .zero false else x

theorem withoutZeroSign_finite (s : Bool) (m : Magnitude) :
    (finite s m).withoutZeroSign = .finite (s && m.units != 0) m := by
  obtain ⟨units, granular, bounded⟩ := m
  by_cases h : units = 0
  · subst h
    cases s <;> rfl
  · have hne : finite s ⟨units, granular, bounded⟩ ≠ .zero true := by
      intro heq
      injection heq with _ hm
      injection hm with hunits
      exact h hunits
    rw [withoutZeroSign, if_neg hne, bne_iff_ne.mpr h, Bool.and_true]

/-- The text of an integer: its sign and the digits of its absolute value. -/
theorem toString_eq (z : ℤ) :
    toString z = String.ofList (signText (z < 0) ++ Nat.toDigits 10 z.natAbs) := by
  cases z with
  | ofNat n =>
    have hsign : ¬ Int.ofNat n < 0 := Int.not_lt.mpr (Int.natCast_nonneg n)
    rw [decide_eq_false hsign]
    rfl
  | negSucc n =>
    rw [decide_eq_true (Int.negSucc_lt_zero n), String.ofList_append]
    rfl

/-- A magnitude that is a natural number is its own whole part. -/
theorem whole_of_value_eq {m : Magnitude} {w : ℕ} (h : m.value = w) : m.whole = w := by
  rw [Magnitude.whole, Magnitude.value_eq_natCast_iff.mp h, Nat.mul_div_cancel _ unitsPerOne_pos]

/-- A number with the value of an integer is made of the sign and the absolute value. -/
theorem finite_of_value? (h : x.value? = some (z : ℚ)) :
    ∃ s m, x = .finite s m ∧ m.value = z.natAbs ∧ m.whole = z.natAbs ∧
      (s && z.natAbs != 0) = decide (z < 0) := by
  match x with
  | .nan => cases h
  | .infinite _ => cases h
  | .finite s m =>
    have hvalue : (if s then -m.value else m.value) = (z : ℚ) := Option.some.inj h
    have hnonneg := m.value_nonneg
    have habs : m.value = z.natAbs := by
      rw [Nat.cast_natAbs, Int.cast_abs, ← hvalue]
      cases s with
      | false => exact (abs_of_nonneg hnonneg).symm
      | true => exact ((abs_neg _).trans (abs_of_nonneg hnonneg)).symm
    refine ⟨s, m, rfl, habs, whole_of_value_eq habs, ?_⟩
    cases s with
    | false =>
      have hz : (0 : ℚ) ≤ z := hvalue ▸ hnonneg
      have hz' : 0 ≤ z := by exact_mod_cast hz
      simp [hz']
    | true =>
      have hz : (z : ℚ) ≤ 0 := by
        rw [← hvalue]
        exact neg_nonpos.mpr hnonneg
      have hz' : z ≤ 0 := by exact_mod_cast hz
      rw [Bool.true_and, Bool.eq_iff_iff, decide_eq_true_iff, bne_iff_ne]
      omega

theorem plainWhole?_of_value? (h : x.value? = some (z : ℚ)) (hz : z.natAbs < wholeLimit) :
    x.plainWhole? = some (signText (z < 0) ++ Nat.toDigits 10 z.natAbs) := by
  obtain ⟨s, m, rfl, hvalue, hwhole, hsign⟩ := finite_of_value? h
  rw [plainWhole?_finite (by rw [hvalue, hwhole]) (by rwa [hwhole]), hwhole, hsign]

/-- **A whole number** below the limit is displayed by the text of the integer. -/
theorem display_eq_toString (h : x.value? = some (z : ℚ)) (hz : z.natAbs < wholeLimit)
    (count : ℕ) : x.display count = toString z := by
  rw [display_of_plainWhole? (plainWhole?_of_value? h hz), toString_eq]

/-- **The text of an integer** is read as the number with this value. -/
theorem number?_toString (h : x.value? = some (z : ℚ)) :
    Token.number? (toString z) = some x.withoutZeroSign := by
  obtain ⟨s, m, rfl, hvalue, hwhole, hsign⟩ := finite_of_value? h
  have hdecimal : (⟨z.natAbs, 0⟩ : Decimal).value = m.value := by
    simp [Decimal.value, hvalue]
  have hread := read?_toDigits (decide (z < 0)) z.natAbs
  rw [Token.number?, toString_eq, String.toList_ofList, hread]
  show some (ofDecimal _ _) = _
  have hzero : (z.natAbs != 0) = (m.units != 0) := by
    rw [Bool.eq_iff_iff, bne_iff_ne, bne_iff_ne, Ne, Ne, ← Magnitude.value_eq_zero_iff, hvalue,
      Nat.cast_eq_zero]
  rw [ofDecimal_of_value_eq _ hdecimal, ← hsign, hzero, withoutZeroSign_finite]

end Binary64
end Keypad
