import Keypad.Proofs.Binary64.Whole

/-! # Seventeen digits

Two numbers of 53 binary digits lie apart by at least the larger one divided by `2 ^ 53`
(`le_two_pow_mul_sub`).  So a decimal that misses a magnitude by less than half of that is read as
the magnitude (`ofDecimal_of_near`).  Rounding to 17 digits misses by less, since `2 ^ 53` is less
than `10 ^ 16`.  Hence every finite number is read back from its display with 17 digits, only
negative zero without its sign (`number?_display_seventeen`). -/

namespace Keypad

/-! ### The distance of two numbers -/

/-- Both are multiples of the weight of the last digit of the smaller one. -/
theorem le_two_pow_mul_sub {u v : ℕ} (hu : 2 ^ (u.log2 - 52) ∣ u) (hv : 2 ^ (v.log2 - 52) ∣ v)
    (h : u < v) : v ≤ 2 ^ 53 * (v - u) := by
  have hlog : u.log2 ≤ v.log2 := by
    rcases Nat.eq_zero_or_pos u with rfl | hpos
    · simp
    · exact (Nat.le_log2 (by omega)).mpr ((Nat.log2_self_le hpos.ne').trans h.le)
  have hv' : 2 ^ (u.log2 - 52) ∣ v := (Nat.pow_dvd_pow 2 (by omega)).trans hv
  have hlt : u < 2 ^ (u.log2 - 52) * 2 ^ 53 := by
    rw [← Nat.pow_add]
    exact Nat.lt_log2_self.trans_le (Nat.pow_le_pow_right (by decide) (by omega))
  generalize 2 ^ (u.log2 - 52) = p at *
  obtain ⟨a, rfl⟩ := hu
  obtain ⟨b, rfl⟩ := hv'
  have ha : a < 2 ^ 53 := Nat.lt_of_mul_lt_mul_left hlt
  have hab : a < b := Nat.lt_of_mul_lt_mul_left h
  have hb : b ≤ 2 ^ 53 * (b - a) := by omega
  calc p * b ≤ p * (2 ^ 53 * (b - a)) := Nat.mul_le_mul_left _ hb
    _ = 2 ^ 53 * (p * b - p * a) := by rw [Nat.mul_left_comm, Nat.mul_sub]

theorem le_two_pow_mul_abs_sub {u v : ℕ} (hu : 2 ^ (u.log2 - 52) ∣ u)
    (hv : 2 ^ (v.log2 - 52) ∣ v) (hne : v ≠ u) : (u : ℚ) ≤ 2 ^ 53 * |(v : ℚ) - u| := by
  rcases Nat.lt_or_gt_of_ne hne with hlt | hgt
  · have hle := le_two_pow_mul_sub hv hu hlt
    rw [abs_sub_comm, ← Nat.cast_sub hlt.le, abs_of_nonneg (Nat.cast_nonneg _)]
    exact_mod_cast hle
  · have hle := le_two_pow_mul_sub hu hv hgt
    rw [← Nat.cast_sub hgt.le, abs_of_nonneg (Nat.cast_nonneg _)]
    exact_mod_cast hgt.le.trans hle

/-- A quotient near to a number of 53 digits is rounded to that number. -/
theorem roundUnits_of_near {num den u : ℕ} (hden : 0 < den) (hu : 2 ^ (u.log2 - 52) ∣ u)
    (h : 2 ^ 54 * |(u : ℚ) - num / den| < u) : roundUnits num den = u := by
  by_contra hne
  have hnearest := roundUnits_nearest num hden hu
  have hapart := le_two_pow_mul_abs_sub hu (roundUnits_granular num den) hne
  have htriangle := abs_sub_le (roundUnits num den : ℚ) (num / den) u
  rw [abs_sub_comm (num / den : ℚ) u] at htriangle
  linarith

namespace Binary64

variable {m : Magnitude}

/-! ### Reading -/

/-- **A decimal near to a magnitude** is read as that magnitude. -/
theorem ofDecimal_of_near (s : Bool) {d : Decimal} (h : 2 ^ 54 * |m.value - d.value| < m.value) :
    ofDecimal s d = .finite s m := by
  have hone : (0 : ℚ) < unitsPerOne := by exact_mod_cast unitsPerOne_pos
  have hunits : (m.units : ℚ) = m.value * unitsPerOne := (div_mul_cancel₀ _ hone.ne').symm
  refine ofDecimal_of_roundUnits_eq s (roundUnits_of_near (decimalDen_pos d) m.granular ?_)
  rw [decimalUnits_div, hunits, ← sub_mul, abs_mul, abs_of_pos hone, ← mul_assoc]
  exact mul_lt_mul_of_pos_right h hone

/-- Seventeen digits are near enough. -/
theorem near_of_isRounding {x v : ℚ} (hx : 0 < x) (h : IsRounding 17 x v) :
    2 ^ 54 * |x - v| < x := by
  have hlast := lastPlace_pos 17 x
  have hdist := h.abs_sub_le
  have hlow := zpow_log_le hx
  rw [zpow_log_eq (by decide : 1 ≤ 17)] at hlow
  rw [abs_sub_comm]
  calc 2 ^ 54 * |v - x| ≤ 2 ^ 54 * (lastPlace 17 x / 2) := by gcongr
    _ = 2 ^ 53 * lastPlace 17 x := by ring
    _ < ((10 ^ (17 - 1) : ℕ) : ℚ) * lastPlace 17 x := by
      refine mul_lt_mul_of_pos_right ?_ hlast
      norm_num
    _ ≤ x := hlow

/-- **A finite number is read back from 17 digits.** -/
theorem number?_display_seventeen (s : Bool) (m : Magnitude) :
    Token.number? ((finite s m).display 17) = some (finite s m).withoutZeroSign := by
  cases hplain : (finite s m).plainWhole? with
  | some cs =>
    obtain ⟨s', m', heq, hvalue, hlt, -⟩ := plainWhole?_eq_some hplain
    obtain ⟨rfl, rfl⟩ : s = s' ∧ m = m' := by simpa using heq
    have hz : (finite s m).value? = some ((if s then -m.whole else m.whole : ℤ) : ℚ) := by
      cases s <;> simp [value?, hvalue]
    have habs : (if s then -m.whole else m.whole : ℤ).natAbs < wholeLimit := by
      cases s <;> simpa using hlt
    rw [display_eq_toString hz habs, number?_toString hz]
  | none =>
    have hcount : 1 ≤ 17 := by decide
    have hpos := value_of_plainWhole?_eq_none hplain
    obtain ⟨d, hread, hvalue⟩ := Decimal.read?_write s
      (coefficient_roundTo_ne_zero hcount hplain) (significantLayout 17) rfl
    have hnear : 2 ^ 54 * |m.value - d.value| < m.value :=
      near_of_isRounding hpos (hvalue ▸ isRounding_display 17 hplain)
    have hsign : (finite s m).withoutZeroSign = finite s m := by
      have hne : m.units ≠ 0 := fun h => hpos.ne' (Magnitude.value_eq_zero_iff.mpr h)
      rw [withoutZeroSign_finite, bne_iff_ne.mpr hne, Bool.and_true]
    rw [display_of_plainWhole?_eq_none hcount hplain, Token.number?, String.toList_ofList,
      hread, hsign]
    exact congrArg some (ofDecimal_of_near s hnear)

end Binary64

end Keypad
