import Keypad.Binary64.Decimal
import Keypad.Proofs.Binary64.Rounding
import Keypad.Proofs.Decimal.Value
import Keypad.Proofs.NearestEven
import Mathlib.Data.Nat.Cast.Order.Field

/-! # The nearest binary64 number

Rounding units finds the nearest of all naturals with at most 53 significant binary digits
(`roundUnits_nearest`): a natural that is no multiple of the last place kept lies below the binade
of the quotient, whose lower end is such a multiple and is nearer.

So the number read from a decimal is the nearest magnitude, or the decimal is too large
(`ofDecimal_nearest`).  Its value is exact in the other direction (`value_toDecimal`). -/

namespace Keypad

/-! ### Units -/

theorem roundUnits_nearest (num : ℕ) {den u : ℕ} (hden : 0 < den) (hu : 2 ^ (u.log2 - 52) ∣ u) :
    |(roundUnits num den : ℚ) - num / den| ≤ |(u : ℚ) - num / den| := by
  obtain ⟨k, hk⟩ : ∃ k, (num / den).log2 - 52 = k := ⟨_, rfl⟩
  have hpow : 0 < 2 ^ k := Nat.two_pow_pos k
  have hpow' : (0 : ℚ) < ((2 ^ k : ℕ) : ℚ) := by exact_mod_cast hpow
  have hround : roundUnits num den = roundHalfEven num (den * 2 ^ k) * 2 ^ k := by
    simp only [roundUnits, hk]
  have hnearest := isNearestEven_roundHalfEven num (Nat.mul_pos hden hpow)
  -- distances in units are distances in last places
  have hscale : ∀ j : ℕ, |((j * 2 ^ k : ℕ) : ℚ) - num / den| =
      |(j : ℚ) - num / ((den * 2 ^ k : ℕ) : ℚ)| * (2 ^ k : ℕ) := by
    intro j
    have hsplit : ((j * 2 ^ k : ℕ) : ℚ) - num / den =
        ((j : ℚ) - num / ((den * 2 ^ k : ℕ) : ℚ)) * (2 ^ k : ℕ) := by
      have hden' : (den : ℚ) ≠ 0 := by exact_mod_cast hden.ne'
      rw [Nat.cast_mul, Nat.cast_mul]
      field_simp
    rw [hsplit, abs_mul, abs_of_pos hpow']
  have hmultiple : ∀ j : ℕ, |(roundUnits num den : ℚ) - num / den| ≤
      |((j * 2 ^ k : ℕ) : ℚ) - num / den| := by
    intro j
    rw [hround, hscale, hscale]
    exact mul_le_mul_of_nonneg_right (hnearest.le j) hpow'.le
  by_cases hdvd : 2 ^ k ∣ u
  · obtain ⟨j, rfl⟩ := hdvd
    rw [Nat.mul_comm]
    exact hmultiple j
  · -- `u` lies below the binade of the quotient
    have hlt : u.log2 - 52 < k := by
      by_contra hge
      exact hdvd (Nat.dvd_trans (Nat.pow_dvd_pow 2 (Nat.le_of_not_lt hge)) hu)
    have hq : num / den ≠ 0 := by
      intro h0
      simp only [h0, Nat.log2_zero] at hk
      omega
    have hbinade : u ≤ 2 ^ 52 * 2 ^ k := by
      rw [← Nat.pow_add]
      exact (Nat.lt_log2_self.trans_le (Nat.pow_le_pow_right (by decide) (by omega))).le
    have hbelow : 2 ^ 52 * 2 ^ k ≤ num / den := by
      rw [← Nat.pow_add, (by omega : 52 + k = (num / den).log2)]
      exact Nat.log2_self_le hq
    have hquot : ((2 ^ 52 * 2 ^ k : ℕ) : ℚ) ≤ num / den :=
      (Nat.cast_le.mpr hbelow).trans Nat.cast_div_le
    have hu' : (u : ℚ) ≤ ((2 ^ 52 * 2 ^ k : ℕ) : ℚ) := Nat.cast_le.mpr hbinade
    calc |(roundUnits num den : ℚ) - num / den|
        ≤ |((2 ^ 52 * 2 ^ k : ℕ) : ℚ) - num / den| := hmultiple _
      _ = num / den - ((2 ^ 52 * 2 ^ k : ℕ) : ℚ) := by rw [abs_of_nonpos] <;> linarith
      _ ≤ -((u : ℚ) - num / den) := by linarith
      _ ≤ |(u : ℚ) - num / den| := neg_le_abs _

/-- Rounding does not pass a natural with few digits. -/
theorem le_roundUnits {num den u : ℕ} (hden : 0 < den) (hu : 2 ^ (u.log2 - 52) ∣ u)
    (hle : u * den ≤ num) : u ≤ roundUnits num den := by
  by_contra hlt
  have hdist := roundUnits_nearest num hden hu
  have hden' : (0 : ℚ) < den := by exact_mod_cast hden
  have hle' : (u : ℚ) ≤ num / den := by
    rw [le_div_iff₀ hden']
    exact_mod_cast hle
  have hlt' : (roundUnits num den : ℚ) < u := by exact_mod_cast Nat.lt_of_not_le hlt
  rw [abs_of_neg (by linarith), abs_of_nonpos (by linarith)] at hdist
  linarith

/-! ### Magnitudes -/

namespace Magnitude

/-- The number that a magnitude stands for. -/
def value (m : Magnitude) : ℚ := m.units / unitsPerOne

theorem value_nonneg (m : Magnitude) : 0 ≤ m.value := by
  unfold value
  positivity

/-- A magnitude is a natural number if its units are so many times those of one. -/
theorem value_eq_natCast_iff {m : Magnitude} {w : ℕ} :
    m.value = w ↔ m.units = w * unitsPerOne := by
  have hone : (unitsPerOne : ℚ) ≠ 0 := by exact_mod_cast unitsPerOne_pos.ne'
  rw [value, div_eq_iff hone, ← Nat.cast_mul, Nat.cast_inj]

theorem value_eq_zero_iff {m : Magnitude} : m.value = 0 ↔ m.units = 0 := by
  rw [← Nat.cast_zero, value_eq_natCast_iff, Nat.zero_mul]

/-- No magnitude is nearer to the number. -/
def IsNearest (m : Magnitude) (x : ℚ) : Prop := ∀ m' : Magnitude, |m.value - x| ≤ |m'.value - x|

/-- A fraction with a power of two below is one with a power of ten. -/
theorem div_two_pow (j k l : ℕ) :
    ((j * 5 ^ l : ℕ) : ℚ) * 10 ^ ((k : ℤ) - ((k + l : ℕ) : ℤ)) =
      ((2 ^ k * j : ℕ) : ℚ) / ((2 ^ (k + l) : ℕ) : ℚ) := by
  have hexp : (k : ℤ) - ((k + l : ℕ) : ℤ) = -(l : ℤ) := by
    push_cast
    ring
  have hten : (10 : ℚ) ^ l = 5 ^ l * 2 ^ l := by
    rw [← mul_pow]
    norm_num
  rw [hexp, zpow_neg, zpow_natCast, hten]
  push_cast
  rw [pow_add]
  field_simp

/-- **Every magnitude is a decimal.** -/
theorem value_toDecimal (m : Magnitude) : m.toDecimal.value = m.value := by
  obtain ⟨k, hk⟩ : ∃ k, min (m.units.log2 - 52) 1074 = k := ⟨_, rfl⟩
  obtain ⟨l, hl⟩ : ∃ l, k + l = 1074 := ⟨1074 - k, by omega⟩
  obtain ⟨j, hj⟩ : 2 ^ k ∣ m.units :=
    Nat.dvd_trans (Nat.pow_dvd_pow 2 (hk ▸ Nat.min_le_left _ _)) m.granular
  have hdecimal : m.toDecimal = ⟨j * 5 ^ l, (k : ℤ) - ((k + l : ℕ) : ℤ)⟩ := by
    have hdrop : 1074 - k = l := by omega
    unfold toDecimal
    simp only [hk, hdrop]
    rw [hj, Nat.mul_div_cancel_left _ (Nat.two_pow_pos k), hl]
    rfl
  have hone : unitsPerOne = 2 ^ (k + l) := by rw [hl]; rfl
  rw [hdecimal, Decimal.value, div_two_pow, value, hone, hj]

end Magnitude

namespace Binary64

/-! ### Decimals -/

/-- The number of units of a decimal, as a quotient: the numerator. -/
def decimalUnits (d : Decimal) : ℕ := d.coefficient * 10 ^ d.exponent.toNat * unitsPerOne

/-- The denominator. -/
def decimalDen (d : Decimal) : ℕ := 10 ^ (-d.exponent).toNat

theorem decimalDen_pos (d : Decimal) : 0 < decimalDen d := Nat.pow_pos (by decide)

theorem decimalUnits_div (d : Decimal) :
    (decimalUnits d : ℚ) / decimalDen d = d.value * unitsPerOne := by
  have hsplit : d.exponent = (d.exponent.toNat : ℤ) - ((-d.exponent).toNat : ℤ) := by omega
  have hpow : (10 : ℚ) ^ d.exponent = 10 ^ d.exponent.toNat / 10 ^ (-d.exponent).toNat := by
    conv_lhs => rw [hsplit, zpow_sub₀ (by norm_num), zpow_natCast, zpow_natCast]
  rw [Decimal.value, hpow, decimalUnits, decimalDen]
  push_cast
  ring

theorem zero_eq_ofQuotient (s : Bool) {num den : ℕ} (h : roundUnits num den = 0) :
    zero s = ofQuotient s num den := by
  rw [ofQuotient_of_lt (by rw [h]; exact unitLimit_pos)]
  simp only [h]
  rfl

theorem granular_of_eq_two_pow {u n : ℕ} (h : u = 2 ^ n) : 2 ^ (u.log2 - 52) ∣ u := by
  rw [h, Nat.log2_two_pow]
  exact Nat.pow_dvd_pow 2 (Nat.sub_le _ _)

theorem infinite_eq_ofQuotient (s : Bool) {num den : ℕ} (hden : 0 < den)
    (h : unitLimit * den ≤ num) : infinite s = ofQuotient s num den := by
  have hgranular : 2 ^ (unitLimit.log2 - 52) ∣ unitLimit := by
    unfold unitLimit
    generalize 2098 = n
    exact granular_of_eq_two_pow rfl
  have hle : unitLimit ≤ roundUnits num den := le_roundUnits hden hgranular h
  unfold ofQuotient
  rw [dif_neg (Nat.not_lt.mpr hle)]

/-- A tiny decimal rounds to nothing. -/
theorem roundUnits_of_small {d : Decimal} (h : d.exponent + (d.coefficient.log2 + 1) < -330) :
    roundUnits (decimalUnits d) (decimalDen d) = 0 := by
  obtain ⟨e, he⟩ : ∃ e, (-d.exponent).toNat = 330 + (d.coefficient.log2 + 1) + e :=
    ⟨(-d.exponent).toNat - (330 + (d.coefficient.log2 + 1)), by omega⟩
  have hexp : d.exponent.toNat = 0 := by omega
  have hcoefficient : d.coefficient < 10 ^ (d.coefficient.log2 + 1) :=
    Nat.lt_log2_self.trans_le (Nat.pow_le_pow_left (by decide) _)
  have hunits : 2 * unitsPerOne ≤ 10 ^ 330 := by decide +kernel
  have hlt : 2 * decimalUnits d < decimalDen d := by
    unfold decimalUnits decimalDen
    rw [hexp, he, Nat.pow_zero, Nat.mul_one, Nat.pow_add, Nat.pow_add]
    generalize 10 ^ (d.coefficient.log2 + 1) = A at *
    generalize 10 ^ 330 = B at *
    have hB : 0 < B := Nat.lt_of_lt_of_le (Nat.mul_pos (by decide) unitsPerOne_pos) hunits
    calc 2 * (d.coefficient * unitsPerOne)
        = d.coefficient * (2 * unitsPerOne) := by rw [Nat.mul_left_comm]
      _ ≤ d.coefficient * B := Nat.mul_le_mul_left _ hunits
      _ < A * B := Nat.mul_lt_mul_of_pos_right hcoefficient hB
      _ = B * A := Nat.mul_comm _ _
      _ ≤ B * A * 10 ^ e := Nat.le_mul_of_pos_right _ (Nat.pow_pos (by decide))
  have hzero : decimalUnits d / decimalDen d = 0 := Nat.div_eq_of_lt (by omega)
  unfold roundUnits
  simp only [hzero, Nat.log2_zero, Nat.zero_sub, Nat.pow_zero, Nat.mul_one]
  exact roundHalfEven_eq_zero hlt

/-- The shortcuts for very large and very small decimals change nothing. -/
theorem ofDecimal_eq_ofQuotient (s : Bool) (d : Decimal) :
    ofDecimal s d = ofQuotient s (decimalUnits d) (decimalDen d) := by
  unfold ofDecimal
  by_cases h0 : d.coefficient = 0
  · rw [if_pos h0]
    refine zero_eq_ofQuotient s ?_
    simp [roundUnits, roundHalfEven, decimalUnits, h0, decimalDen_pos]
  rw [if_neg h0]
  by_cases hlarge : 310 ≤ d.exponent
  · rw [if_pos hlarge]
    refine infinite_eq_ofQuotient s (decimalDen_pos d) ?_
    have hden : decimalDen d = 1 := by
      have : (-d.exponent).toNat = 0 := by omega
      rw [decimalDen, this, Nat.pow_zero]
    have hunits : unitLimit ≤ 10 ^ 310 * unitsPerOne := by decide +kernel
    have hexp : 310 ≤ d.exponent.toNat := by omega
    rw [hden, Nat.mul_one, decimalUnits]
    generalize 310 = e at *
    have hpow : 10 ^ e ≤ 10 ^ d.exponent.toNat := Nat.pow_le_pow_right (by decide) hexp
    have hle : 10 ^ d.exponent.toNat ≤ d.coefficient * 10 ^ d.exponent.toNat :=
      Nat.le_mul_of_pos_left _ (Nat.pos_of_ne_zero h0)
    exact hunits.trans (Nat.mul_le_mul_right _ (hpow.trans hle))
  rw [if_neg hlarge]
  by_cases hsmall : d.exponent + (d.coefficient.log2 + 1) < -330
  · rw [if_pos hsmall]
    exact zero_eq_ofQuotient s (roundUnits_of_small hsmall)
  rw [if_neg hsmall]
  split
  · next hneg =>
    have h1 : d.exponent.toNat = 0 := by omega
    have h2 : (-d.exponent).toNat = d.exponent.natAbs := by omega
    rw [decimalUnits, decimalDen, h1, h2, Nat.pow_zero, Nat.mul_one]
  · next hpos =>
    have h1 : d.exponent.toNat = d.exponent.natAbs := by omega
    have h2 : (-d.exponent).toNat = 0 := by omega
    rw [decimalUnits, decimalDen, h1, h2, Nat.pow_zero]

/-- A decimal of which the units are rounded to those of a magnitude. -/
theorem ofDecimal_of_roundUnits_eq (s : Bool) {d : Decimal} {m : Magnitude}
    (h : roundUnits (decimalUnits d) (decimalDen d) = m.units) : ofDecimal s d = .finite s m := by
  have hlt : roundUnits (decimalUnits d) (decimalDen d) < unitLimit := by
    rw [h]
    exact m.bounded
  rw [ofDecimal_eq_ofQuotient, ofQuotient_of_lt hlt]
  simp only [h]

/-- **Reading a decimal finds the nearest magnitude**, unless the decimal is too large. -/
theorem ofDecimal_nearest (s : Bool) (d : Decimal) :
    (∃ m, ofDecimal s d = .finite s m ∧ m.IsNearest d.value) ∨ ofDecimal s d = .infinite s := by
  rw [ofDecimal_eq_ofQuotient]
  by_cases hlt : roundUnits (decimalUnits d) (decimalDen d) < unitLimit
  · refine Or.inl ⟨_, ofQuotient_of_lt hlt, fun m' => ?_⟩
    have hone : (0 : ℚ) < unitsPerOne := by exact_mod_cast unitsPerOne_pos
    have hscale : ∀ u : ℕ, |(u : ℚ) / unitsPerOne - d.value| =
        |(u : ℚ) - decimalUnits d / decimalDen d| / unitsPerOne := by
      intro u
      rw [decimalUnits_div, ← abs_of_pos hone, ← abs_div, abs_of_pos hone, sub_div,
        mul_div_cancel_right₀ _ hone.ne']
    have hdist := roundUnits_nearest (decimalUnits d) (decimalDen_pos d) m'.granular
    unfold Magnitude.value
    rw [hscale, hscale]
    exact div_le_div_of_nonneg_right hdist hone.le
  · refine Or.inr ?_
    unfold ofQuotient
    rw [dif_neg hlt]

end Binary64

end Keypad
