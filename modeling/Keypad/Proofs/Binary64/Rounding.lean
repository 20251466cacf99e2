import Keypad.Binary64.Arithmetic

/-! # Rounding to binary64

A magnitude is its own rounding (`ofQuotient_units`), and rounding at most doubles: a quotient of at
most a quarter of `n` units rounds to less than `n` (`roundUnits_lt`), down to the smallest `n`. -/

namespace Keypad

theorem unitsPerOne_pos : 0 < unitsPerOne := by decide +kernel

theorem roundHalfEven_eq_zero {num den : Nat} (h : 2 * num < den) : roundHalfEven num den = 0 := by
  have hlt : num < den := by omega
  unfold roundHalfEven
  simp only [Nat.mod_eq_of_lt hlt, if_pos h, Nat.div_eq_of_lt hlt]

/-- The weight of the last digit kept of a positive number is at most the number. -/
theorem two_pow_log2_sub_le {q : Nat} (h : q ≠ 0) : 2 ^ (q.log2 - 52) ≤ q :=
  Nat.le_trans (Nat.pow_le_pow_right (by decide) (Nat.sub_le _ _)) (Nat.log2_self_le h)

/-- Rounding adds at most the weight of the last digit kept. -/
theorem roundUnits_le (num den : Nat) :
    roundUnits num den ≤ num / den + 2 ^ ((num / den).log2 - 52) := by
  have hr := roundHalfEven_le num (den * 2 ^ ((num / den).log2 - 52))
  rw [← Nat.div_div_eq_div_mul] at hr
  calc roundUnits num den
      ≤ (num / den / 2 ^ ((num / den).log2 - 52) + 1) * 2 ^ ((num / den).log2 - 52) :=
        Nat.mul_le_mul_right _ hr
    _ ≤ num / den + 2 ^ ((num / den).log2 - 52) := by
        rw [Nat.add_mul, Nat.one_mul]
        exact Nat.add_le_add_right (Nat.div_mul_le_self _ _) _

/-- A quotient far below `n` units stays below after rounding. -/
theorem roundUnits_lt {num den n : Nat} (hden : 0 < den) (hn : 0 < n) (h : 4 * num ≤ den * n) :
    roundUnits num den < n := by
  by_cases hq : num / den = 0
  · have hround : roundUnits num den = roundHalfEven num den := by
      simp [roundUnits, hq]
    have hle := roundHalfEven_le num den
    rw [hround]
    rcases Nat.lt_or_ge n 2 with h1 | h2
    · obtain rfl : n = 1 := by omega
      rw [roundHalfEven_eq_zero (by omega)]
      exact hn
    · omega
  · have hle := roundUnits_le num den
    have hpow := two_pow_log2_sub_le hq
    have hquarter : 4 * (num / den) ≤ n := by
      refine Nat.le_of_mul_le_mul_left ?_ hden
      calc den * (4 * (num / den)) = 4 * (den * (num / den)) := by rw [Nat.mul_left_comm]
        _ ≤ 4 * num := Nat.mul_le_mul_left _ (Nat.mul_div_le _ _)
        _ ≤ den * n := h
    omega

theorem roundUnits_units (m : Magnitude) : roundUnits m.units 1 = m.units := by
  obtain ⟨q, hq⟩ := m.granular
  have hpow : 0 < 2 ^ (m.units.log2 - 52) := Nat.two_pow_pos _
  simp only [roundUnits, Nat.div_one, Nat.one_mul]
  have hexact : roundHalfEven m.units (2 ^ (m.units.log2 - 52)) = q := by
    conv => lhs; arg 1; rw [hq, Nat.mul_comm]
    exact roundHalfEven_mul_right q hpow
  rw [hexact, Nat.mul_comm, ← hq]

namespace Binary64

theorem ofQuotient_of_lt {s : Bool} {num den : Nat} (h : roundUnits num den < unitLimit) :
    ofQuotient s num den =
      .finite s ⟨roundUnits num den, roundUnits_granular num den, h⟩ := by
  unfold ofQuotient
  rw [dif_pos h]

theorem ofQuotient_units (s : Bool) (m : Magnitude) : ofQuotient s m.units 1 = .finite s m := by
  have hlt : roundUnits m.units 1 < unitLimit := by
    rw [roundUnits_units]
    exact m.bounded
  rw [ofQuotient_of_lt hlt]
  simp only [roundUnits_units]

end Binary64

end Keypad
