import Keypad.Proofs.Decimal.Reading
import Keypad.Token

/-! # Texts of digits and points

A text of digits and points is spelled plainly, has no sign and is no word, so it is a number
exactly if it is a decimal (`isNumber_eq_isSome_decimal?`).  It is cut at its first point and, if
there is another one, at its second (`exists_cut`): without a point it has whole digits, with one
point whole digits and fraction digits, and a second point stands where only an exponent may follow.
Hence it is a decimal exactly if it has a digit and at most one point (`isSome_decimal?_iff`). -/

namespace Keypad

namespace Numeral

variable {cs : List Char}

/-! ### Cutting at a point -/

/-- A text is cut at its first point. -/
theorem exists_cut (h : ∀ c ∈ cs, c.isDigit = true ∨ c = '.') (hpoint : '.' ∈ cs) :
    ∃ ds rest, cs = ds ++ '.' :: rest ∧ (∀ c ∈ ds, c.isDigit = true) ∧
      ∀ c ∈ rest, c.isDigit = true ∨ c = '.' := by
  obtain ⟨ds, rest, rfl, hds⟩ := List.eq_append_cons_of_mem hpoint
  obtain ⟨hfirst, hrest⟩ := List.forall_mem_append.mp h
  refine ⟨ds, rest, rfl, fun c hc => ?_, (List.forall_mem_cons.mp hrest).2⟩
  rcases hfirst c hc with hdigit | rfl
  · exact hdigit
  · exact absurd hc hds

/-- Without a point there are digits only. -/
theorem isDigit_of_not_mem (h : ∀ c ∈ cs, c.isDigit = true ∨ c = '.') (hpoint : '.' ∉ cs) :
    ∀ c ∈ cs, c.isDigit = true := by
  intro c hc
  rcases h c hc with hdigit | rfl
  · exact hdigit
  · exact absurd hc hpoint

theorem exists_isDigit_iff (h : ∀ c ∈ cs, c.isDigit = true) :
    (∃ c ∈ cs, c.isDigit = true) ↔ cs ≠ [] := by
  constructor
  · rintro ⟨c, hc, -⟩
    exact List.ne_nil_of_mem hc
  · intro hne
    obtain ⟨c, hc⟩ := List.exists_mem_of_ne_nil cs hne
    exact ⟨c, hc, h c hc⟩

theorem count_point_eq_zero (h : ∀ c ∈ cs, c.isDigit = true) : cs.count '.' = 0 := by
  refine List.count_eq_zero.mpr fun hmem => ?_
  cases h '.' hmem

/-! ### Decimals -/

/-- A text without a point is a decimal if it is not empty. -/
theorem isSome_decimal?_of_digits (h : ∀ c ∈ cs, c.isDigit = true) :
    (decimal? cs).isSome = true ↔ cs ≠ [] := by
  by_cases hnil : cs = []
  · rw [hnil]
    decide
  · simp [decimal?_digits h hnil, hnil]

/-- A text with one point is a decimal if a digit stands before or after it. -/
theorem isSome_decimal?_of_point {whole fraction : List Char}
    (hwhole : ∀ c ∈ whole, c.isDigit = true) (hfraction : ∀ c ∈ fraction, c.isDigit = true) :
    (decimal? (whole ++ '.' :: fraction)).isSome = true ↔ whole ≠ [] ∨ fraction ≠ [] := by
  have hread := decimal?_digits_point hwhole hfraction noDigitFirst_nil
  rw [List.append_nil] at hread
  rw [hread, exponent?]
  by_cases hnil : whole = [] ∧ fraction = []
  · simp [hnil]
  · rw [if_neg hnil]
    simp only [Option.map_some, Option.isSome_some, true_iff]
    tauto

/-- A text with a second point is no decimal: no exponent begins with a point. -/
theorem decimal?_of_points {whole fraction rest : List Char}
    (hwhole : ∀ c ∈ whole, c.isDigit = true) (hfraction : ∀ c ∈ fraction, c.isDigit = true) :
    decimal? (whole ++ '.' :: (fraction ++ '.' :: rest)) = none := by
  have hexponent : exponent? ('.' :: rest) = none := rfl
  rw [decimal?_digits_point hwhole hfraction (noDigitFirst_point rest), hexponent]
  simp

/-- **Decimals of digits and points** are the texts with a digit and at most one point. -/
theorem isSome_decimal?_iff (h : ∀ c ∈ cs, c.isDigit = true ∨ c = '.') :
    (decimal? cs).isSome = true ↔ (∃ c ∈ cs, c.isDigit = true) ∧ cs.count '.' ≤ 1 := by
  by_cases hfirst : '.' ∈ cs
  · obtain ⟨whole, rest, rfl, hwhole, hrest⟩ := exists_cut h hfirst
    by_cases hsecond : '.' ∈ rest
    · obtain ⟨fraction, tail, rfl, hfraction, -⟩ := exists_cut hrest hsecond
      rw [decimal?_of_points hwhole hfraction]
      refine iff_of_false (by simp) fun hcount => ?_
      have := hcount.2
      simp only [List.count_append, List.count_cons_self] at this
      omega
    · have hfraction := isDigit_of_not_mem hrest hsecond
      have hcount : (whole ++ '.' :: rest).count '.' ≤ 1 := by
        rw [List.count_append, List.count_cons_self, count_point_eq_zero hwhole,
          count_point_eq_zero hfraction]
      have hdigit : (∃ c ∈ whole ++ '.' :: rest, c.isDigit = true) ↔ whole ≠ [] ∨ rest ≠ [] := by
        simp only [List.mem_append, or_and_right, exists_or]
        rw [List.exists_mem_cons_iff, exists_isDigit_iff hwhole, exists_isDigit_iff hfraction]
        simp
      rw [isSome_decimal?_of_point hwhole hfraction, hdigit, and_iff_left hcount]
  · have hdigits := isDigit_of_not_mem h hfirst
    have hcount : cs.count '.' ≤ 1 := by rw [count_point_eq_zero hdigits]; exact Nat.zero_le 1
    rw [isSome_decimal?_of_digits hdigits, exists_isDigit_iff hdigits, and_iff_left hcount]

end Numeral

/-! ### Numbers -/

namespace Token

/-- A text of digits and points is a number if it is a decimal. -/
theorem isNumber_eq_isSome_decimal? {s : String} (h : looksNumeric s = true) :
    isNumber s = (Numeral.decimal? s.toList).isSome := by
  obtain ⟨hne, hchars⟩ := looksNumeric_iff.mp h
  have hplain := Numeral.plain?_eq fun c hc => (hchars c hc).imp_right .inl
  have hread : Numeral.readPlain? s.toList =
      (Numeral.decimal? s.toList).map (.decimal false) := by
    obtain ⟨c, cs, hcs⟩ := List.exists_cons_of_ne_nil hne
    rw [hcs] at hchars ⊢
    exact Numeral.readPlain?_signText false (hchars c List.mem_cons_self)
  rw [isNumber, number?, Numeral.read?, hplain, Option.bind_some, hread]
  simp

/-- **A text of digits and points is a number** exactly if it has a digit and at most one point. -/
theorem isNumber_iff_of_looksNumeric {s : String} (h : looksNumeric s = true) :
    isNumber s = true ↔ (∃ c ∈ s.toList, c.isDigit = true) ∧ s.toList.count '.' ≤ 1 := by
  rw [isNumber_eq_isSome_decimal? h]
  exact Numeral.isSome_decimal?_iff (looksNumeric_iff.mp h).2

end Token

end Keypad
