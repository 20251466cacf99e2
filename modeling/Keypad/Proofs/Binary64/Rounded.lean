import Keypad.Proofs.Binary64.Whole
import Keypad.Proofs.Decimal.Parts

/-! # Rounded numbers

A number that is no whole number below `2 ^ 53` is displayed rounded to the count of significant
digits, a half to even.  The theorem on it, `display_correctly_rounded`, speaks about the text
alone: what the text is read as (`Numeral.rational?`), how many significant digits it has, how its
fraction ends, and whether it has an exponent. -/

namespace Keypad

namespace Numeral

/-- The number that a numeral exactly stands for, unless it is a word. -/
def rational? : Numeral → Option ℚ
  | .decimal negative d => some (if negative then -d.value else d.value)
  | _ => none

end Numeral

/-- A rounding of a positive number, and its opposite. -/
theorem IsRounding.exists_int {count : ℕ} {x v : ℚ} (h : IsRounding count x v) (s : Bool) :
    ∃ n : ℤ, (if s then -v else v) = n * lastPlace count x ∧
      |(if s then -v else v) - (if s then -x else x)| ≤ lastPlace count x / 2 ∧
      (|(if s then -v else v) - (if s then -x else x)| = lastPlace count x / 2 → Even n) := by
  have hp := lastPlace_pos count x
  have hdist := h.abs_sub_le
  obtain ⟨n, hn, rfl⟩ := h
  have heven : |n * lastPlace count x - x| = lastPlace count x / 2 → Even (n : ℤ) := by
    intro htie
    have hhalf : lastPlace count x / 2 = 1 / 2 * lastPlace count x := by ring
    rw [abs_mul_sub hp, hhalf] at htie
    exact_mod_cast hn.even (mul_right_cancel₀ hp.ne' htie)
  cases s with
  | false => exact ⟨n, rfl, hdist, heven⟩
  | true =>
    have hneg : |-(n * lastPlace count x) - -x| = |n * lastPlace count x - x| := by
      rw [neg_sub_neg, abs_sub_comm]
    refine ⟨-n, by simp, ?_, ?_⟩
    · rw [if_pos rfl, if_pos rfl, hneg]
      exact hdist
    · rw [if_pos rfl, if_pos rfl, hneg]
      exact fun htie => (heven htie).neg

namespace Binary64

variable {x : Binary64} {v : ℚ} {count : ℕ}

theorem exists_finite (h : x.value? = some v) : ∃ s m, x = finite s m := by
  cases x with
  | finite s m => exact ⟨s, m, rfl⟩
  | infinite s => cases h
  | nan => cases h

theorem abs_value? {s : Bool} {m : Magnitude} (h : (finite s m).value? = some v) :
    |v| = m.value := by
  have hsigned : (if s then -m.value else m.value) = v := Option.some.inj h
  rw [← hsigned]
  cases s with
  | false => exact abs_of_nonneg m.value_nonneg
  | true => exact (abs_neg _).trans (abs_of_nonneg m.value_nonneg)

/-- What is not whole or not below the limit is rounded. -/
theorem plainWhole?_eq_none (hx : x.value? = some v) (hv : (∀ z : ℤ, v ≠ z) ∨ 2 ^ 53 ≤ |v|) :
    x.plainWhole? = none := by
  cases h : x.plainWhole? with
  | none => rfl
  | some cs =>
    obtain ⟨s, m, rfl, hvalue, hlt, -⟩ := plainWhole?_eq_some h
    rcases hv with hv | hv
    · have hsigned : (if s then -m.value else m.value) = v := Option.some.inj hx
      refine absurd ?_ (hv (if s then -m.whole else m.whole))
      rw [← hsigned, hvalue]
      cases s <;> simp
    · have hlt' : (m.whole : ℚ) < 2 ^ 53 := by exact_mod_cast hlt
      rw [abs_value? hx, hvalue] at hv
      exact absurd hv (not_le.mpr hlt')

/-- **Rounded results are correctly rounded.**  The display of a finite number that is not whole or
not below `2 ^ 53` reads exactly as a multiple of the weight of the last significant digit, at most
half of that weight away from the number, and even if it is just half away.  It has at most `count`
significant digits, no zero ends its fraction, and it has an exponent if and only if the leading
exponent of the rounded value is below `-4` or at least `count`. -/
theorem display_correctly_rounded (hx : x.value? = some v)
    (hv : (∀ z : ℤ, v ≠ z) ∨ 2 ^ 53 ≤ |v|) (hcount : 1 ≤ count) :
    let text := (x.display count).toList
    let place := lastPlace count |v|
    ∃ w, (Numeral.read? text).bind Numeral.rational? = some w ∧
      (∃ n : ℤ, w = n * place ∧ |w - v| ≤ place / 2 ∧ (|w - v| = place / 2 → Even n)) ∧
      (Numeral.significantDigits text).length ≤ count ∧
      (Numeral.fractionDigits text).getLast? ≠ some '0' ∧
      ('e' ∈ text ↔ Int.log 10 |w| < -4 ∨ count ≤ Int.log 10 |w|) := by
  obtain ⟨s, m, rfl⟩ := exists_finite hx
  intro text place
  have hplain := plainWhole?_eq_none hx hv
  have hne := coefficient_roundTo_ne_zero hcount hplain
  have htext : text =
      signText s ++ (m.toDecimal.roundTo count).write (significantLayout count) := by
    show ((finite s m).display count).toList = _
    rw [display_of_plainWhole?_eq_none hcount hplain, String.toList_ofList]
  have hplace : place = lastPlace count m.value := congrArg (lastPlace count) (abs_value? hx)
  obtain ⟨d, hread, hvalue⟩ := Decimal.read?_write s hne (significantLayout count) rfl
  obtain ⟨n, hn, hdist, heven⟩ := (hvalue ▸ isRounding_display count hplain).exists_int s
  have hbound : (significantLayout count).bound ≤ count := le_rfl
  obtain ⟨whole, fraction, hparts, hlast, hlength⟩ :=
    Decimal.exists_parts hne rfl (Decimal.length_significant_roundTo hcount _) hbound
  obtain rfl : (if s then -m.value else m.value) = v := Option.some.inj hx
  refine ⟨if s then -d.value else d.value, ?_, ⟨n, ?_⟩, ?_, ?_, ?_⟩
  · rw [htext, hread]
    rfl
  · rw [hplace]
    exact ⟨hn, hdist, heven⟩
  · rwa [htext, hparts.significantDigits_eq]
  · rwa [htext, hparts.fractionDigits_eq]
  · have habs : |if s then -d.value else d.value| = (m.toDecimal.roundTo count).value := by
      have hpos := Decimal.value_pos hne
      rw [← hvalue] at hpos ⊢
      cases s <;> simp [abs_of_pos hpos]
    have hsign : 'e' ∉ signText s := fun h => Numeral.ne_of_mem_signText h (by decide) rfl
    rw [htext, List.mem_append, or_iff_right hsign, habs, Decimal.log_value hne]
    exact Decimal.e_mem_write_iff rfl

/-- A tie is rounded to the even digit, and the carry leaves a power of ten that needs an
exponent. -/
theorem display_correctly_rounded_tie :
    let x := ofDecimal false ⟨95, -1⟩
    x.value? = some (19 / 2) ∧ (∀ z : ℤ, (19 / 2 : ℚ) ≠ z) ∧ x.display 1 = "1e+01" ∧
      lastPlace 1 |(19 / 2 : ℚ)| = 1 ∧
      ∃ w n, (Numeral.read? "1e+01".toList).bind Numeral.rational? = some w ∧
        w = ((n : ℤ) : ℚ) ∧ |w - 19 / 2| = 1 / 2 ∧ Even n ∧ 1 ≤ Int.log 10 |w| := by
  intro x
  have hvalue : x.value? = some (19 / 2) := by decide +kernel
  have hfrac : ∀ z : ℤ, (19 / 2 : ℚ) ≠ z := by
    intro z h
    have htwice : (19 : ℚ) = 2 * z := by linarith
    have : (19 : ℤ) = 2 * z := by exact_mod_cast htwice
    omega
  have htext : x.display 1 = "1e+01" := by decide +kernel
  have hplace : lastPlace 1 |(19 / 2 : ℚ)| = 1 := by decide +kernel
  obtain ⟨w, hread, ⟨n, hn, -, heven⟩, -, -, hmark⟩ :=
    display_correctly_rounded hvalue (.inl hfrac) (le_refl 1)
  rw [htext] at hread hmark
  rw [hplace, mul_one] at hn
  rw [hplace] at heven
  have hw : (Numeral.read? "1e+01".toList).bind Numeral.rational? = some 10 := by decide +kernel
  obtain rfl : w = 10 := Option.some.inj (hread.symm.trans hw)
  have hsmall : ¬ Int.log 10 |(10 : ℚ)| < -4 := by decide +kernel
  have hlog : 1 ≤ Int.log 10 |(10 : ℚ)| := (hmark.mp (by decide)).resolve_left hsmall
  exact ⟨hvalue, hfrac, htext, hplace, 10, n, hread, hn, by norm_num, heven (by norm_num), hlog⟩

end Binary64

end Keypad
