import Keypad.Decimal.Basic
import Mathlib.Algebra.Order.Field.Power
import Mathlib.Data.Int.Log
import Mathlib.Data.Rat.Floor
import Mathlib.Tactic.FieldSimp
import Mathlib.Tactic.Linarith
import Mathlib.Tactic.NormNum
import Mathlib.Tactic.Positivity
import Mathlib.Tactic.Ring

/-! # The value of a decimal

Several decimals have the same value, but a decimal is written by its value alone: the leading
exponent is the integer logarithm of the value (`log_value`), and decimals of one value have the
same digits but for zeros at their end (`write_eq_of_value_eq`). -/

namespace Keypad

namespace Decimal

/-- The number that a decimal stands for. -/
def value (d : Decimal) : ℚ := d.coefficient * 10 ^ d.exponent

theorem value_pos {d : Decimal} (h : d.coefficient ≠ 0) : 0 < d.value := by
  have : (0 : ℚ) < d.coefficient := by exact_mod_cast Nat.pos_of_ne_zero h
  unfold value
  positivity

theorem coefficient_ne_zero {d : Decimal} (h : 0 < d.value) : d.coefficient ≠ 0 := by
  intro h0
  simp [value, h0] at h

/-! ### The leading exponent -/

/-- A number with `n` digits lies from `10 ^ (n - 1)` on below `10 ^ n`. -/
theorem pow_length_digits {d : Decimal} (h : d.coefficient ≠ 0) :
    10 ^ (d.digits.length - 1) ≤ d.coefficient ∧ d.coefficient < 10 ^ d.digits.length := by
  have hpos : 0 < d.digits.length := Nat.length_toDigits_pos
  constructor
  · by_cases h1 : d.digits.length = 1
    · rw [h1]
      exact Nat.pos_of_ne_zero h
    · have hlt : ¬ d.digits.length ≤ d.digits.length - 1 := by omega
      have hnot := mt (Nat.length_toDigits_le_iff (by decide) (by omega)).mpr hlt
      exact Nat.le_of_not_lt hnot
  · exact (Nat.length_toDigits_le_iff (by decide) hpos).mp (Nat.le_refl _)

theorem log_value {d : Decimal} (h : d.coefficient ≠ 0) : Int.log 10 d.value = d.leading := by
  obtain ⟨hle, hlt⟩ := pow_length_digits h
  have hpos : 0 < d.digits.length := Nat.length_toDigits_pos
  have hten : (0 : ℚ) < 10 ^ d.exponent := by positivity
  have hleading : d.leading = (d.digits.length - 1 : ℕ) + d.exponent := by
    unfold leading
    rw [if_neg h]
    omega
  refine le_antisymm ?_ ?_
  · refine Int.lt_add_one_iff.mp ((Int.lt_zpow_iff_log_lt (by decide) (value_pos h)).mp ?_)
    have hsum : d.leading + 1 = (d.digits.length : ℕ) + d.exponent := by omega
    rw [hsum, zpow_add₀ (by norm_num), zpow_natCast]
    refine mul_lt_mul_of_pos_right ?_ hten
    exact_mod_cast hlt
  · refine (Int.zpow_le_iff_le_log (by decide) (value_pos h)).mp ?_
    rw [hleading, zpow_add₀ (by norm_num), zpow_natCast]
    refine mul_le_mul_of_nonneg_right ?_ hten.le
    exact_mod_cast hle

/-! ### Digits -/

theorem isDigit_of_mem_digits {d : Decimal} {c : Char} (h : c ∈ d.digits) : c.isDigit = true :=
  Nat.isDigit_of_mem_toDigits (by decide) (by decide) h

/-- A power of ten adds zeros. -/
theorem toDigits_mul_pow {n : Nat} (h : 0 < n) (k : Nat) :
    Nat.toDigits 10 (n * 10 ^ k) = Nat.toDigits 10 n ++ List.replicate k '0' := by
  induction k with
  | zero => simp
  | succ k ih =>
    have hpos : 0 < n * 10 ^ k := Nat.mul_pos h (Nat.pow_pos (by decide))
    have hstep := Nat.toDigits_append_toDigits (b := 10) (by decide) hpos (by decide : 0 < 10)
    have hsum : n * 10 ^ (k + 1) = 10 * (n * 10 ^ k) + 0 := by
      rw [Nat.pow_succ, Nat.add_zero, Nat.mul_comm 10, Nat.mul_assoc]
    rw [hsum, ← hstep, ih, Nat.toDigits_zero, List.append_assoc, List.replicate_succ']

/-- The significant digits are the digits without some zeros at the end. -/
theorem exists_digits_eq (d : Decimal) :
    d.significant ≠ [] ∧ ∃ k, d.digits = d.significant ++ List.replicate k '0' := by
  have hne : d.digits ≠ [] := Nat.toDigits_ne_nil
  unfold significant
  match d.digits, hne with
  | c :: cs, _ =>
    refine ⟨List.cons_ne_nil _ _, (cs.reverse.takeWhile (· == '0')).length, ?_⟩
    have hzeros : cs.reverse.takeWhile (· == '0') =
        List.replicate (cs.reverse.takeWhile (· == '0')).length '0' := by
      refine List.eq_replicate_iff.mpr ⟨rfl, fun b hb => ?_⟩
      have := List.all_eq_true.mp List.all_takeWhile b hb
      simpa using this
    have hsplit := congrArg List.reverse
      (List.takeWhile_append_dropWhile (p := (· == '0')) (l := cs.reverse))
    rw [List.reverse_reverse, List.reverse_append, hzeros, List.reverse_replicate] at hsplit
    rw [List.cons_append, hsplit]

theorem isDigit_of_mem_significant {d : Decimal} {c : Char} (h : c ∈ d.significant) :
    c.isDigit = true := by
  obtain ⟨-, k, hk⟩ := exists_digits_eq d
  exact isDigit_of_mem_digits (d := d) (by rw [hk]; exact List.mem_append_left _ h)

/-- Zeros at the end are not significant. -/
theorem significant_eq_of_zeros {d d' : Decimal} {k : Nat}
    (h : d.digits = d'.digits ++ List.replicate k '0') : d.significant = d'.significant := by
  have hne : d'.digits ≠ [] := Nat.toDigits_ne_nil
  unfold significant
  rw [h]
  match d'.digits, hne with
  | c :: cs, _ =>
    have hdrop : (List.replicate k '0').dropWhile (· == '0') = [] := by simp
    simp only [List.cons_append, List.reverse_append, List.reverse_replicate]
    rw [List.dropWhile_append, hdrop]
    simp

/-- **A decimal is written by its value.** -/
theorem write_eq_of_value_eq {d d' : Decimal} (h : 0 < d.value) (heq : d.value = d'.value)
    (layout : Layout) : d.write layout = d'.write layout := by
  have hc := coefficient_ne_zero h
  have hc' := coefficient_ne_zero (heq ▸ h)
  have hleading : d.leading = d'.leading := by rw [← log_value hc, ← log_value hc', heq]
  have hsignificant : d.significant = d'.significant := by
    wlog hle : d'.exponent ≤ d.exponent generalizing d d' with hsymm
    · exact (hsymm (heq ▸ h) heq.symm hc' hc hleading.symm (by omega)).symm
    obtain ⟨k, hk⟩ := Int.eq_ofNat_of_zero_le (sub_nonneg.mpr hle)
    have hcoefficient : d'.coefficient = d.coefficient * 10 ^ k := by
      have hten : (10 : ℚ) ^ d'.exponent ≠ 0 := by positivity
      have hexp : d.exponent = k + d'.exponent := by omega
      rw [value, value, hexp, zpow_add₀ (by norm_num), zpow_natCast, ← mul_assoc] at heq
      have := mul_right_cancel₀ hten heq
      exact_mod_cast this.symm
    have hdigits : d'.digits = d.digits ++ List.replicate k '0' := by
      rw [digits, hcoefficient]
      exact toDigits_mul_pow (Nat.pos_of_ne_zero hc) k
    exact (significant_eq_of_zeros hdigits).symm
  unfold write
  rw [hleading, hsignificant]

end Decimal

end Keypad
