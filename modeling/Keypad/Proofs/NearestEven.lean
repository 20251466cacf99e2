import Keypad.Rounding
import Mathlib.Algebra.Order.Field.Basic
import Mathlib.Algebra.Order.Field.Rat
import Mathlib.Algebra.Ring.Parity
import Mathlib.Tactic.FieldSimp
import Mathlib.Tactic.Linarith
import Mathlib.Tactic.NormNum

/-! # The nearest natural number

`IsNearestEven x n` says that `n` is within one half of `x`, and even if it is just one half away.
There is exactly one such `n` (`IsNearestEven.unique`), no natural number is nearer
(`IsNearestEven.le`), and for a quotient `roundHalfEven` finds it. -/

namespace Keypad

/-- `n` is nearest to `x`, of two equally near ones it is the even one. -/
structure IsNearestEven (x : ℚ) (n : ℕ) : Prop where
  near : |(n : ℚ) - x| ≤ 1 / 2
  even : |(n : ℚ) - x| = 1 / 2 → Even n

theorem isNearestEven_of_lt {x : ℚ} {n : ℕ} (h : |(n : ℚ) - x| < 1 / 2) : IsNearestEven x n where
  near := h.le
  even he := absurd he h.ne

theorem isNearestEven_roundHalfEven (num : ℕ) {den : ℕ} (h : 0 < den) :
    IsNearestEven (num / den) (roundHalfEven num den) := by
  have hden : (0 : ℚ) < den := by exact_mod_cast h
  have hsplit : (num : ℚ) / den = (num / den : ℕ) + (num % den : ℕ) / den := by
    have hdiv : (num : ℚ) = den * (num / den : ℕ) + (num % den : ℕ) := by
      exact_mod_cast (Nat.div_add_mod num den).symm
    rw [hdiv]
    field_simp
  have hmod : num % den < den := Nat.mod_lt num h
  unfold roundHalfEven
  dsimp only
  rw [hsplit]
  generalize num / den = q at *
  generalize num % den = r at *
  have hr : (r : ℚ) / den * den = r := div_mul_cancel₀ _ hden.ne'
  have hr0 : (0 : ℚ) ≤ r / den := by positivity
  generalize (r : ℚ) / den = t at *
  by_cases hlt : 2 * r < den
  · have hhalf : t < 1 / 2 := by
      have : (2 : ℚ) * r < den := by exact_mod_cast hlt
      nlinarith
    rw [if_pos hlt]
    refine isNearestEven_of_lt ?_
    rw [abs_lt]
    constructor <;> linarith
  · by_cases hgt : den < 2 * r
    · have hhalf : 1 / 2 < t := by
        have : (den : ℚ) < 2 * r := by exact_mod_cast hgt
        nlinarith
      have hone : t < 1 := by
        have : (r : ℚ) < den := by exact_mod_cast hmod
        nlinarith
      rw [if_neg hlt, if_pos hgt]
      refine isNearestEven_of_lt ?_
      rw [abs_lt]
      push_cast
      constructor <;> linarith
    · have hhalf : t = 1 / 2 := by
        have : (2 : ℚ) * r = den := by exact_mod_cast (by omega : 2 * r = den)
        nlinarith
      rw [if_neg hlt, if_neg hgt]
      have heven : Even (q + q % 2) := by
        rw [Nat.even_iff]
        omega
      refine ⟨?_, fun _ => heven⟩
      rw [abs_le, hhalf]
      rcases Nat.mod_two_eq_zero_or_one q with h0 | h1
      · rw [h0]
        push_cast
        constructor <;> linarith
      · rw [h1]
        push_cast
        constructor <;> linarith

namespace IsNearestEven

variable {x : ℚ} {n : ℕ}

theorem unique {n' : ℕ} (h : IsNearestEven x n) (h' : IsNearestEven x n') : n = n' := by
  wlog hle : n ≤ n' generalizing n n' with hsymm
  · exact (hsymm h' h (by omega)).symm
  obtain ⟨hlow, hhigh⟩ := abs_le.mp h.near
  obtain ⟨hlow', hhigh'⟩ := abs_le.mp h'.near
  rcases Nat.lt_or_ge n n' with hlt | hge
  · -- neighbours, both one half away, so that both are even
    have hge : (n : ℚ) + 1 ≤ n' := by exact_mod_cast hlt
    have hnext : n' = n + 1 := by
      have : (n' : ℚ) ≤ n + 1 := by linarith
      have : n' ≤ n + 1 := by exact_mod_cast this
      omega
    have heven : Even n := h.even (by rw [abs_of_nonpos] <;> linarith)
    have heven' : Even n' := h'.even (by rw [abs_of_nonneg] <;> linarith)
    rw [Nat.even_iff] at heven heven'
    omega
  · omega

/-- No natural number is nearer. -/
theorem le (h : IsNearestEven x n) (j : ℕ) : |(n : ℚ) - x| ≤ |(j : ℚ) - x| := by
  rcases Nat.lt_trichotomy j n with hlt | rfl | hgt
  · have hone : (j : ℚ) + 1 ≤ n := by exact_mod_cast hlt
    have hlow := (abs_le.mp h.near).2
    calc |(n : ℚ) - x| ≤ 1 / 2 := h.near
      _ ≤ -((j : ℚ) - x) := by linarith
      _ ≤ |(j : ℚ) - x| := neg_le_abs _
  · exact le_rfl
  · have hone : (n : ℚ) + 1 ≤ j := by exact_mod_cast hgt
    have hlow := (abs_le.mp h.near).1
    calc |(n : ℚ) - x| ≤ 1 / 2 := h.near
      _ ≤ (j : ℚ) - x := by linarith
      _ ≤ |(j : ℚ) - x| := le_abs_self _

end IsNearestEven

end Keypad
