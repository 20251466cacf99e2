import Keypad.Proofs.Decimal.Reading
import Keypad.Proofs.Decimal.Rounding
import Mathlib.Data.List.DropRight
import Mathlib.Data.List.TakeWhile

/-! # The parts of a written number

Before its exponent mark a written number has whole digits and, after a point, fraction digits.  The
fraction digits and the significant digits of a text are found by scans of the text
(`fractionDigits`, `significantDigits`), whatever wrote it.

`HasParts` says of which parts a text is made, and then what the scans find.  Both layouts of a
decimal make such a text of its significant digits (`hasParts_exponential`, `hasParts_positional`).
Those end with no zero (`getLast?_significant`), and a decimal rounded to a count of digits has no
more of them than the count (`length_significant_roundTo`).  So the same holds of what is written
(`exists_parts`). -/

namespace Keypad

namespace Numeral

/-! ### Scans of a text -/

/-- The characters of a written number before its exponent mark. -/
def mantissa (cs : List Char) : List Char := cs.takeWhile (· ≠ 'e')

/-- The digits of a written number from the first that is not zero on, those of its exponent left
out. -/
def significantDigits (cs : List Char) : List Char :=
  ((mantissa cs).filter Char.isDigit).dropWhile (· = '0')

/-- The digits of a written number after its point. -/
def fractionDigits (cs : List Char) : List Char := ((mantissa cs).dropWhile (· ≠ '.')).tail

/-- The point and the fraction digits, if there are any. -/
def pointed (fraction : List Char) : List Char :=
  if fraction = [] then [] else '.' :: fraction

/-- A text made of whole digits, fraction digits after a point, and an exponent mark or none. -/
structure HasParts (cs whole fraction : List Char) : Prop where
  text : ∃ mark, cs = whole ++ pointed fraction ++ mark ∧ ∀ c ∈ mark.head?, c = 'e'
  whole : ∀ c ∈ whole, c.isDigit = true
  fraction : ∀ c ∈ fraction, c.isDigit = true

theorem ne_of_isDigit {c d : Char} (h : c.isDigit = true) (hd : d.isDigit = false) : c ≠ d := by
  rintro rfl
  rw [h] at hd
  cases hd

theorem ne_of_mem_signText {s : Bool} {c d : Char} (h : c ∈ Binary64.signText s) (hd : d ≠ '-') :
    c ≠ d := by
  cases s with
  | false => cases h
  | true =>
    rw [List.mem_singleton.mp h]
    exact hd.symm

namespace HasParts

variable {cs whole fraction : List Char} (h : HasParts cs whole fraction) (s : Bool)
include h

theorem mantissa_eq :
    mantissa (Binary64.signText s ++ cs) = Binary64.signText s ++ whole ++ pointed fraction := by
  obtain ⟨mark, rfl, hmark⟩ := h.text
  have hnone : ∀ c ∈ Binary64.signText s ++ whole ++ pointed fraction, (c ≠ 'e' : Bool) = true := by
    intro c hc
    rw [decide_eq_true_eq]
    rcases List.mem_append.mp hc with hc | hc
    · rcases List.mem_append.mp hc with hc | hc
      · exact ne_of_mem_signText hc (by decide)
      · exact ne_of_isDigit (h.whole c hc) rfl
    · unfold pointed at hc
      split at hc
      · cases hc
      · rcases List.mem_cons.mp hc with rfl | hc
        · decide
        · exact ne_of_isDigit (h.fraction c hc) rfl
  have hstop : mark.takeWhile (· ≠ 'e') = [] := by
    cases mark with
    | nil => rfl
    | cons c mark =>
      rw [hmark c rfl]
      rfl
  rw [mantissa, ← List.append_assoc, ← List.append_assoc, List.takeWhile_append_of_pos hnone, hstop,
    List.append_nil]

theorem fractionDigits_eq : fractionDigits (Binary64.signText s ++ cs) = fraction := by
  have hnone : ∀ c ∈ Binary64.signText s ++ whole, (c ≠ '.' : Bool) = true := by
    intro c hc
    rw [decide_eq_true_eq]
    rcases List.mem_append.mp hc with hc | hc
    · exact ne_of_mem_signText hc (by decide)
    · exact ne_of_isDigit (h.whole c hc) rfl
  rw [fractionDigits, h.mantissa_eq, List.dropWhile_append_of_pos hnone, pointed]
  split
  · next hnil => rw [hnil]; rfl
  · rfl

theorem significantDigits_eq :
    significantDigits (Binary64.signText s ++ cs) = (whole ++ fraction).dropWhile (· = '0') := by
  have hsign : (Binary64.signText s).filter Char.isDigit = [] := by cases s <;> rfl
  have hpointed : (pointed fraction).filter Char.isDigit = fraction := by
    unfold pointed
    split
    · next hnil => rw [hnil]; rfl
    · exact (List.filter_cons_of_neg (by decide)).trans (List.filter_eq_self.mpr h.fraction)
  rw [significantDigits, h.mantissa_eq, List.filter_append, List.filter_append, hsign, hpointed,
    List.filter_eq_self.mpr h.whole, List.nil_append]

end HasParts

end Numeral

namespace Decimal

open Numeral

/-! ### The two layouts -/

section Layouts

variable {ds : List Char} {e : ℤ} (hds : ∀ c ∈ ds, c.isDigit = true)
include hds

theorem hasParts_exponential : HasParts (exponential ds e) (ds.take 1) (ds.drop 1) where
  text := by
    refine ⟨exponentMark e, ?_, by rintro c ⟨⟩; rfl⟩
    match ds with
    | [] => rfl
    | [c] => rfl
    | c :: c' :: cs => rfl
  whole c hc := hds c (List.mem_of_mem_take hc)
  fraction c hc := hds c (List.mem_of_mem_drop hc)

omit hds in
theorem isDigit_of_mem_zeros {c : Char} {k : ℕ} (h : c ∈ List.replicate k '0') :
    c.isDigit = true := by
  rw [(List.mem_replicate.mp h).2]
  rfl

/-- Below one the digits follow the point and some zeros. -/
theorem hasParts_positional_neg (hne : ds ≠ []) (he : e < 0) :
    HasParts (positional false ds e) ['0'] (List.replicate (e.natAbs - 1) '0' ++ ds) where
  text := by
    refine ⟨[], ?_, nofun⟩
    rw [positional, if_pos he, pointed, if_neg (by simp [hne])]
    simp
  whole := by
    intro c hc
    rw [List.mem_singleton.mp hc]
    rfl
  fraction := List.forall_mem_append.mpr ⟨fun _ => isDigit_of_mem_zeros, hds⟩

/-- From one on the digits fill the places before the point, the rest follows the point. -/
theorem hasParts_positional (he : ¬ e < 0) :
    HasParts (positional false ds e)
      (ds.take (e.toNat + 1) ++ List.replicate (e.toNat + 1 - ds.length) '0')
      (ds.drop (e.toNat + 1)) where
  text := by
    refine ⟨[], ?_, nofun⟩
    rw [positional, if_neg he]
    dsimp only
    by_cases hle : ds.length ≤ e.toNat + 1
    · rw [if_pos hle, List.take_of_length_le hle, List.drop_of_length_le hle, List.append_nil]
      rfl
    · have hzero : e.toNat + 1 - ds.length = 0 := by omega
      have hrest : ds.drop (e.toNat + 1) ≠ [] := by
        rw [Ne, List.drop_eq_nil_iff]
        exact hle
      rw [if_neg hle, hzero, pointed, if_neg hrest]
      simp
  whole := List.forall_mem_append.mpr
    ⟨fun c hc => hds c (List.mem_of_mem_take hc), fun _ => isDigit_of_mem_zeros⟩
  fraction c hc := hds c (List.mem_of_mem_drop hc)

end Layouts

/-! ### Significant digits -/

theorem length_significant_le (d : Decimal) : d.significant.length ≤ d.digits.length := by
  obtain ⟨-, k, hk⟩ := exists_digits_eq d
  rw [hk, List.length_append]
  exact Nat.le_add_right _ _

/-- The significant digits of a number do not end with a zero. -/
theorem getLast?_significant {d : Decimal} (h : d.coefficient ≠ 0) :
    d.significant.getLast? ≠ some '0' := by
  have hcoefficient : ofDigits d.digits = d.coefficient := Nat.ofDigitChars_ten_toDigits
  have hne : d.digits ≠ [] := Nat.toDigits_ne_nil
  unfold significant
  match d.digits, hne, hcoefficient with
  | c :: cs, _, hcoefficient =>
    show (c :: cs.rdropWhile (· == '0')).getLast? ≠ some '0'
    by_cases hnil : cs.rdropWhile (· == '0') = []
    · -- only zeros follow the first digit
      rw [hnil]
      intro hzero
      obtain rfl : c = '0' := by simpa using hzero
      have hall : '0' :: cs = List.replicate (cs.length + 1) '0' := by
        have hcs : ∀ b ∈ cs, b = '0' := by simpa using List.rdropWhile_eq_nil_iff.mp hnil
        rw [List.replicate_succ, List.eq_replicate_iff.mpr ⟨rfl, hcs⟩, List.length_replicate]
      rw [hall, ← List.append_nil (List.replicate _ _), ofDigits_zeros_append] at hcoefficient
      exact h hcoefficient.symm
    · have hlast := List.rdropWhile_last_not (· == '0') cs hnil
      rw [List.getLast?_cons, List.getLast?_eq_some_getLast hnil]
      simpa using hlast

/-- Rounding leaves at most so many significant digits: a carry out of the first digit leaves a
power of ten. -/
theorem length_significant_roundTo {count : ℕ} (hcount : 1 ≤ count) (d : Decimal) :
    (d.roundTo count).significant.length ≤ count := by
  have hle : (d.roundTo count).coefficient ≤ 10 ^ count := by
    have hpos : 0 < d.digits.length := Nat.length_toDigits_pos
    have hlt : d.coefficient < 10 ^ d.digits.length :=
      (Nat.length_toDigits_le_iff (by decide) hpos).mp (Nat.le_refl _)
    have hpow : 10 ^ d.digits.length ≤ 10 ^ (d.digits.length - count) * 10 ^ count := by
      rw [← Nat.pow_add]
      exact Nat.pow_le_pow_right (by decide) (by omega)
    refine (roundHalfEven_le _ _).trans ?_
    exact Nat.div_lt_of_lt_mul (hlt.trans_le hpow)
  rcases Nat.lt_or_eq_of_le hle with hlt | heq
  · refine (length_significant_le _).trans ?_
    exact (Nat.length_toDigits_le_iff (by decide) hcount).mpr hlt
  · have hdigits : (d.roundTo count).digits =
        (⟨1, 0⟩ : Decimal).digits ++ List.replicate count '0' := by
      have hone := toDigits_mul_pow (by decide : 0 < 1) count
      rwa [Nat.one_mul, ← heq] at hone
    rw [significant_eq_of_zeros hdigits]
    exact hcount

/-! ### What is written -/

/-- **The parts of what is written.**  Of digits that end with no zero, a fraction ends with none;
and the places before the point are no more than the layout writes without an exponent. -/
theorem exists_parts {d : Decimal} {layout : Layout} {count : ℕ} (h : d.coefficient ≠ 0)
    (hlayout : layout.pointZero = false) (hlength : d.significant.length ≤ count)
    (hbound : layout.bound ≤ count) :
    ∃ whole fraction, HasParts (d.write layout) whole fraction ∧ fraction.getLast? ≠ some '0' ∧
      ((whole ++ fraction).dropWhile (· = '0')).length ≤ count := by
  have hne := (exists_digits_eq d).1
  have hds : ∀ c ∈ d.significant, c.isDigit = true := fun _ => isDigit_of_mem_significant
  have hlast := getLast?_significant h
  have hdrop : ∀ k, (d.significant.drop k).getLast? ≠ some '0' := by
    intro k
    rw [List.getLast?_drop]
    split
    · exact nofun
    · exact hlast
  unfold write
  split
  · refine ⟨_, _, hasParts_exponential hds, hdrop 1, ?_⟩
    rw [List.take_append_drop]
    exact (List.length_dropWhile_le _ _).trans hlength
  · next hmark =>
    rw [not_or, not_le] at hmark
    rw [hlayout]
    by_cases he : d.leading < 0
    · refine ⟨_, _, hasParts_positional_neg hds hne he, ?_, ?_⟩
      · rw [List.getLast?_append_of_ne_nil _ hne]
        exact hlast
      · have hzeros : ∀ c ∈ ['0'] ++ List.replicate (d.leading.natAbs - 1) '0',
            (c = '0' : Bool) = true := by
          simp
        rw [← List.append_assoc, List.dropWhile_append_of_pos hzeros]
        exact (List.length_dropWhile_le _ _).trans hlength
    · refine ⟨_, _, hasParts_positional hds he, hdrop _, ?_⟩
      refine (List.length_dropWhile_le _ _).trans ?_
      simp only [List.length_append, List.length_take, List.length_replicate, List.length_drop]
      omega

end Decimal

end Keypad
