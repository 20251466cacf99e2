import Keypad.Binary64.Significant
import Keypad.Decimal.Numeral
import Keypad.Proofs.Decimal.Value

/-! # Reading back what is written

A text of digits, signs, points and `e` is spelled plainly (`plain?_eq`).  Both layouts of a decimal
are such texts, and reading either of them gives a decimal of the same value: digits written with a
leading exponent stand for `scientific` (`decimal?_exponential`, `decimal?_positional`), and the
significant digits of a decimal stand for its value (`scientific_significant`).

Together: a decimal that is written is read back with its value (`read?_write`). -/

namespace Keypad

namespace Numeral

/-! ### Spelling -/

/-- A character of a written number. -/
def IsWritten (c : Char) : Prop := c.isDigit = true ∨ c = '.' ∨ c = '-' ∨ c = '+' ∨ c = 'e'

theorem toNat_of_isDigit {c : Char} (h : c.isDigit = true) : 48 ≤ c.toNat ∧ c.toNat ≤ 57 := by
  unfold Char.isDigit at h
  rw [Bool.and_eq_true, decide_eq_true_eq, decide_eq_true_eq] at h
  exact ⟨UInt32.le_iff_toNat_le.mp h.1, UInt32.le_iff_toNat_le.mp h.2⟩

theorem IsWritten.plain {c : Char} (h : IsWritten c) :
    plainChar? c = some c ∧ isSpace c = false ∧ c ≠ '_' := by
  rcases h with hd | rfl | rfl | rfl | rfl
  · have hrange := toNat_of_isDigit hd
    refine ⟨?_, ?_, ?_⟩
    · rw [plainChar?, if_pos (by omega)]
    · have hspace : c ≠ ' ' := by
        rintro rfl
        simp at hrange
      simp [isSpace, hspace]
      omega
    · rintro rfl
      simp at hrange
  · decide
  · decide
  · decide
  · decide

theorem mapM_eq_self {f : Char → Option Char} {cs : List Char} (h : ∀ c ∈ cs, f c = some c) :
    cs.mapM f = some cs := by
  induction cs with
  | nil => rfl
  | cons c cs ih =>
    obtain ⟨hc, hcs⟩ := List.forall_mem_cons.mp h
    rw [List.mapM_cons, hc, ih hcs]
    rfl

theorem dropUnderscores_eq {cs : List Char} (h : ∀ c ∈ cs, c ≠ '_') (afterDigit : Bool) :
    dropUnderscores afterDigit cs = some cs := by
  induction cs generalizing afterDigit with
  | nil => rfl
  | cons c cs ih =>
    obtain ⟨hc, hcs⟩ := List.forall_mem_cons.mp h
    rw [dropUnderscores, if_neg hc, ih hcs]
    rfl

theorem trim_eq {p : Char → Bool} {cs : List Char} (h : ∀ c ∈ cs, p c = false) :
    Text.trim p cs = cs := by
  have hdrop : ∀ l : List Char, (∀ c ∈ l, p c = false) → l.dropWhile p = l := by
    intro l hl
    cases l with
    | nil => rfl
    | cons c l => rw [List.dropWhile_cons_of_neg (by simp [hl c List.mem_cons_self])]
  have hreverse : ∀ c ∈ cs.reverse, p c = false := by simpa using h
  rw [Text.trim, Text.trimEnd, hdrop cs h, hdrop cs.reverse hreverse, List.reverse_reverse]

/-- A written number is spelled plainly. -/
theorem plain?_eq {cs : List Char} (h : ∀ c ∈ cs, IsWritten c) : plain? cs = some cs := by
  have hmap : cs.mapM plainChar? = some cs := mapM_eq_self fun c hc => (h c hc).plain.1
  have htrim : Text.trim isSpace cs = cs := trim_eq fun c hc => (h c hc).plain.2.1
  rw [plain?, hmap]
  show dropUnderscores false (Text.trim isSpace cs) = some cs
  rw [htrim]
  exact dropUnderscores_eq (fun c hc => (h c hc).plain.2.2) false

/-! ### Digits -/

/-- Nothing, or a text that does not begin with a digit. -/
def NoDigitFirst (rest : List Char) : Prop := ∀ c ∈ rest.head?, c.isDigit = false

theorem noDigitFirst_nil : NoDigitFirst [] := nofun

theorem noDigitFirst_point (rest : List Char) : NoDigitFirst ('.' :: rest) := by
  rintro c ⟨⟩
  rfl

theorem splitDigits_append {ds rest : List Char} (hds : ∀ c ∈ ds, c.isDigit = true)
    (hrest : NoDigitFirst rest) : splitDigits (ds ++ rest) = (ds, rest) := by
  rw [splitDigits, List.takeWhile_append_of_pos hds, List.dropWhile_append_of_pos hds]
  cases rest with
  | nil => simp
  | cons c rest =>
    have hc : c.isDigit = false := hrest c rfl
    simp [hc]

theorem ofDigits_append_zeros (ds : List Char) (k : ℕ) :
    ofDigits (ds ++ List.replicate k '0') = 10 ^ k * ofDigits ds := by
  rw [ofDigits, Nat.ofDigitChars_append, Nat.ofDigitChars_replicate_zero, ofDigits]

theorem ofDigits_zeros_append (ds : List Char) (k : ℕ) :
    ofDigits (List.replicate k '0' ++ ds) = ofDigits ds := by
  rw [ofDigits, Nat.ofDigitChars_append, Nat.ofDigitChars_replicate_zero, Nat.mul_zero, ofDigits]

/-! ### Exponents -/

theorem exponent?_exponentMark (e : ℤ) : exponent? (Decimal.exponentMark e) = some e := by
  have hdigits : ∀ c ∈ List.replicate (2 - (Nat.toDigits 10 e.natAbs).length) '0' ++
      Nat.toDigits 10 e.natAbs, c.isDigit = true := by
    intro c hc
    rcases List.mem_append.mp hc with hc | hc
    · rw [(List.mem_replicate.mp hc).2]
      rfl
    · exact Nat.isDigit_of_mem_toDigits (by decide) (by decide) hc
  have hvalue := ofDigits_zeros_append (Nat.toDigits 10 e.natAbs)
    (2 - (Nat.toDigits 10 e.natAbs).length)
  rw [ofDigits, ofDigits, Nat.ofDigitChars_ten_toDigits, ← ofDigits] at hvalue
  have hne : List.replicate (2 - (Nat.toDigits 10 e.natAbs).length) '0' ++
      Nat.toDigits 10 e.natAbs ≠ [] := by simp
  unfold Decimal.exponentMark
  dsimp only
  generalize List.replicate (2 - (Nat.toDigits 10 e.natAbs).length) '0' ++
    Nat.toDigits 10 e.natAbs = ds at *
  have hall : (!ds.isEmpty && ds.all Char.isDigit) = true := by
    simpa [hne] using hdigits
  by_cases hneg : e < 0
  · have heq : -(e.natAbs : ℤ) = e := by omega
    rw [if_pos hneg]
    simp only [exponent?, splitSign, hall, hvalue, heq]
    rfl
  · have heq : (e.natAbs : ℤ) = e := by omega
    rw [if_neg hneg]
    simp only [exponent?, splitSign, hall, hvalue, heq]
    rfl

theorem noDigitFirst_exponentMark (e : ℤ) : NoDigitFirst (Decimal.exponentMark e) := by
  rintro c ⟨⟩
  rfl

/-! ### Decimals -/

section Parts

variable {whole fraction mark : List Char} {e : ℤ}

/-- Digits, a point, more digits and what follows them, with a digit before or after the point. -/
theorem decimal?_digits_point (hwhole : ∀ c ∈ whole, c.isDigit = true)
    (hfraction : ∀ c ∈ fraction, c.isDigit = true) (hmark : NoDigitFirst mark) :
    decimal? (whole ++ '.' :: (fraction ++ mark)) =
      if whole = [] ∧ fraction = [] then none
      else (exponent? mark).map fun e => ⟨ofDigits (whole ++ fraction), e - fraction.length⟩ := by
  unfold decimal?
  rw [splitDigits_append hwhole (noDigitFirst_point _)]
  simp only [splitFraction]
  rw [splitDigits_append hfraction hmark]
  simp

/-- Digits, a point and more digits. -/
theorem decimal?_point (hwhole : ∀ c ∈ whole, c.isDigit = true) (hne : whole ≠ [])
    (hfraction : ∀ c ∈ fraction, c.isDigit = true) (hmark : NoDigitFirst mark)
    (he : exponent? mark = some e) :
    decimal? (whole ++ '.' :: (fraction ++ mark)) =
      some ⟨ofDigits (whole ++ fraction), e - fraction.length⟩ := by
  rw [decimal?_digits_point hwhole hfraction hmark, if_neg fun h => hne h.1, he]
  rfl

/-- Digits without a point. -/
theorem decimal?_whole (hwhole : ∀ c ∈ whole, c.isDigit = true) (hne : whole ≠ [])
    (hmark : NoDigitFirst mark) (hpoint : mark.head? ≠ some '.') (he : exponent? mark = some e) :
    decimal? (whole ++ mark) = some ⟨ofDigits whole, e⟩ := by
  have hfraction : splitFraction mark = ([], mark) := by
    unfold splitFraction
    split
    · simp at hpoint
    · rfl
  unfold decimal?
  rw [splitDigits_append hwhole hmark]
  simp only [hfraction]
  simp [hne, he]

/-- Digits alone. -/
theorem decimal?_digits (hwhole : ∀ c ∈ whole, c.isDigit = true) (hne : whole ≠ []) :
    decimal? whole = some ⟨ofDigits whole, 0⟩ := by
  have hread := decimal?_whole hwhole hne noDigitFirst_nil (by simp) (e := 0) rfl
  rwa [List.append_nil] at hread

end Parts

/-- A text that begins with a digit or a point is no word, and it has no sign of its own. -/
theorem readPlain?_signText (s : Bool) {c : Char} {cs : List Char}
    (hc : c.isDigit = true ∨ c = '.') :
    readPlain? (Binary64.signText s ++ c :: cs) = (decimal? (c :: cs)).map (.decimal s) := by
  have hrange : 46 ≤ c.toNat ∧ c.toNat ≤ 57 := by
    rcases hc with hdigit | rfl
    · have := toNat_of_isDigit hdigit
      omega
    · decide
  have hsplit : splitSign (Binary64.signText s ++ c :: cs) = (s, c :: cs) := by
    cases s with
    | true => rfl
    | false =>
      show splitSign (c :: cs) = (false, c :: cs)
      unfold splitSign
      split
      · next h =>
        obtain ⟨rfl, -⟩ := List.cons.inj h
        simp at hrange
      · next h =>
        obtain ⟨rfl, -⟩ := List.cons.inj h
        simp at hrange
      · rfl
  have hlower : c.toLower = c := by
    have hnot : ¬ (c.val ≥ 'A'.val ∧ c.val ≤ 'Z'.val) := by
      rintro ⟨hA, -⟩
      have hA : 65 ≤ c.toNat := UInt32.le_iff_toNat_le.mp hA
      omega
    unfold Char.toLower
    rw [dif_neg hnot]
  have hword : ∀ (w : Char) (ws : List Char), 57 < w.toNat →
      (c :: cs).map Char.toLower ≠ w :: ws := by
    intro w ws hw heq
    rw [List.map_cons, hlower] at heq
    obtain ⟨rfl, -⟩ := List.cons.inj heq
    omega
  unfold readPlain?
  rw [hsplit]
  simp only
  rw [if_neg, if_neg]
  · exact hword _ _ (by decide)
  · simp only [Bool.or_eq_true, decide_eq_true_eq, not_or]
    exact ⟨hword _ _ (by decide), hword _ _ (by decide)⟩

/-- An unsigned decimal is read with the sign before it. -/
theorem readPlain?_sign (s : Bool) {c : Char} {cs : List Char} {d : Decimal}
    (hc : c.isDigit = true) (hd : decimal? (c :: cs) = some d) :
    readPlain? (Binary64.signText s ++ c :: cs) = some (.decimal s d) := by
  rw [readPlain?_signText s (.inl hc), hd]
  rfl

end Numeral

namespace Decimal

open Numeral

/-- The number that digits with a leading exponent stand for. -/
def scientific (ds : List Char) (e : ℤ) : ℚ := ofDigits ds * 10 ^ (e - (ds.length - 1))

theorem scientific_significant {d : Decimal} (h : d.coefficient ≠ 0) :
    scientific d.significant d.leading = d.value := by
  obtain ⟨hne, k, hk⟩ := exists_digits_eq d
  have hlength : d.digits.length = d.significant.length + k := by
    rw [hk, List.length_append, List.length_replicate]
  have hcoefficient : d.coefficient = 10 ^ k * ofDigits d.significant := by
    have hdigits : ofDigits d.digits = d.coefficient := Nat.ofDigitChars_ten_toDigits
    rw [← hdigits, hk, ofDigits_append_zeros]
  have hexp : d.leading - (d.significant.length - 1) = k + d.exponent := by
    unfold leading
    rw [if_neg h]
    omega
  rw [scientific, hexp, value, hcoefficient, zpow_add₀ (by norm_num), zpow_natCast]
  push_cast
  ring

variable {ds : List Char} {e : ℤ}

theorem decimal?_exponential (hne : ds ≠ []) (hds : ∀ c ∈ ds, c.isDigit = true) :
    ∃ d, decimal? (exponential ds e) = some d ∧ d.value = scientific ds e := by
  have hmark := noDigitFirst_exponentMark e
  have he := exponent?_exponentMark e
  match ds, hne with
  | [c], _ =>
    have hpoint : (exponentMark e).head? ≠ some '.' := by
      intro h
      cases h
    refine ⟨_, decimal?_whole hds (List.cons_ne_nil _ _) hmark hpoint he, ?_⟩
    simp [value, scientific]
  | c :: c' :: cs, _ =>
    obtain ⟨hc, hcs⟩ := List.forall_mem_cons.mp hds
    have hsingle : ∀ b ∈ [c], b.isDigit = true := by simpa using hc
    refine ⟨_, decimal?_point hsingle (List.cons_ne_nil _ _) hcs hmark he, ?_⟩
    simp [value, scientific]

theorem decimal?_positional (hne : ds ≠ []) (hds : ∀ c ∈ ds, c.isDigit = true) :
    ∃ d, decimal? (positional false ds e) = some d ∧ d.value = scientific ds e := by
  have hzero : ∀ k, ∀ c ∈ List.replicate k '0', c.isDigit = true := by
    intro k c hc
    rw [(List.mem_replicate.mp hc).2]
    rfl
  unfold positional
  by_cases hneg : e < 0
  · have hfraction : ∀ c ∈ List.replicate (e.natAbs - 1) '0' ++ ds, c.isDigit = true :=
      List.forall_mem_append.mpr ⟨hzero _, hds⟩
    have hread := decimal?_point (hzero 1) (by simp) hfraction noDigitFirst_nil (e := 0) rfl
    rw [List.append_nil] at hread
    rw [if_pos hneg]
    refine ⟨_, hread, ?_⟩
    have hdigits : ofDigits (List.replicate 1 '0' ++ (List.replicate (e.natAbs - 1) '0' ++ ds)) =
        ofDigits ds := by
      rw [ofDigits_zeros_append, ofDigits_zeros_append]
    have hexp : (0 : ℤ) - (List.replicate (e.natAbs - 1) '0' ++ ds).length =
        e - (ds.length - 1) := by
      rw [List.length_append, List.length_replicate]
      omega
    rw [value, scientific, hdigits, hexp]
  · rw [if_neg hneg]
    dsimp only
    by_cases hle : ds.length ≤ e.toNat + 1
    · rw [if_pos hle, if_neg (by decide), List.append_nil]
      have hwhole : ∀ c ∈ ds ++ List.replicate (e.toNat + 1 - ds.length) '0', c.isDigit = true :=
        List.forall_mem_append.mpr ⟨hds, hzero _⟩
      have hread := decimal?_digits hwhole (by simp [hne])
      have hpad : (e - (ds.length - 1) : ℤ) = (e.toNat + 1 - ds.length : ℕ) := by omega
      refine ⟨_, hread, ?_⟩
      rw [value, scientific, ofDigits_append_zeros, hpad, zpow_natCast]
      push_cast
      ring
    · rw [if_neg hle]
      have hsplit : ds.take (e.toNat + 1) ++ ds.drop (e.toNat + 1) = ds := List.take_append_drop _ _
      have hwhole : ds.take (e.toNat + 1) ≠ [] := by simp [hne]
      have htake : ∀ c ∈ ds.take (e.toNat + 1), c.isDigit = true :=
        fun c hc => hds c (List.mem_of_mem_take hc)
      have hdrop : ∀ c ∈ ds.drop (e.toNat + 1), c.isDigit = true :=
        fun c hc => hds c (List.mem_of_mem_drop hc)
      have hread := decimal?_point htake hwhole hdrop noDigitFirst_nil (e := 0) rfl
      have hexp : (0 : ℤ) - (ds.drop (e.toNat + 1)).length = e - (ds.length - 1) := by
        rw [List.length_drop]
        omega
      rw [List.append_nil] at hread
      refine ⟨_, hread, ?_⟩
      rw [value, scientific, hsplit, hexp]

/-! ### Characters -/

theorem isWritten_of_mem_exponentMark {c : Char} (h : c ∈ exponentMark e) : IsWritten c := by
  unfold exponentMark at h
  simp only [List.mem_cons, List.mem_append, List.mem_replicate] at h
  rcases h with rfl | h | ⟨-, rfl⟩ | h
  · exact Or.inr (Or.inr (Or.inr (Or.inr rfl)))
  · split at h
    · exact Or.inr (Or.inr (Or.inl h))
    · exact Or.inr (Or.inr (Or.inr (Or.inl h)))
  · exact Or.inl rfl
  · exact Or.inl (Nat.isDigit_of_mem_toDigits (by decide) (by decide) h)

theorem isWritten_of_mem_exponential (hds : ∀ c ∈ ds, c.isDigit = true) {c : Char}
    (h : c ∈ exponential ds e) : IsWritten c := by
  match ds with
  | [] => exact isWritten_of_mem_exponentMark h
  | [b] =>
    rcases List.mem_cons.mp h with rfl | h
    · exact Or.inl (hds c List.mem_cons_self)
    · exact isWritten_of_mem_exponentMark h
  | b :: b' :: bs =>
    obtain ⟨hb, hbs⟩ := List.forall_mem_cons.mp hds
    rcases List.mem_append.mp h with h | h
    · rcases List.mem_cons.mp h with rfl | h
      · exact Or.inl hb
      · rcases List.mem_cons.mp h with rfl | h
        · exact Or.inr (Or.inl rfl)
        · exact Or.inl (hbs c h)
    · exact isWritten_of_mem_exponentMark h

theorem e_mem_exponential (ds : List Char) (e : ℤ) : 'e' ∈ exponential ds e := by
  have hmark : 'e' ∈ exponentMark e := List.mem_cons_self
  unfold exponential
  split
  · exact hmark
  · exact List.mem_cons_of_mem _ hmark
  · exact List.mem_append_right _ hmark

/-- A number written positionally has digits and at most a point. -/
theorem mem_positional (hds : ∀ c ∈ ds, c.isDigit = true) {c : Char}
    (h : c ∈ positional false ds e) : c.isDigit = true ∨ c = '.' := by
  have hzero : ∀ k, c ∈ List.replicate k '0' → c.isDigit = true := by
    intro k hc
    rw [(List.mem_replicate.mp hc).2]
    rfl
  unfold positional at h
  split at h
  · rcases List.mem_cons.mp h with rfl | h
    · exact Or.inl rfl
    rcases List.mem_cons.mp h with rfl | h
    · exact Or.inr rfl
    rcases List.mem_append.mp h with h | h
    · exact Or.inl (hzero _ h)
    · exact Or.inl (hds c h)
  · dsimp only at h
    split at h
    · rw [if_neg (by decide), List.append_nil] at h
      rcases List.mem_append.mp h with h | h
      · exact Or.inl (hds c h)
      · exact Or.inl (hzero _ h)
    · rcases List.mem_append.mp h with h | h
      · exact Or.inl (hds c (List.mem_of_mem_take h))
      · rcases List.mem_cons.mp h with rfl | h
        · exact Or.inr rfl
        · exact Or.inl (hds c (List.mem_of_mem_drop h))

theorem isWritten_of_mem_write {d : Decimal} {layout : Layout} (hlayout : layout.pointZero = false)
    {c : Char} (h : c ∈ d.write layout) : IsWritten c := by
  have hds : ∀ c ∈ d.significant, c.isDigit = true := fun _ => isDigit_of_mem_significant
  unfold write at h
  split at h
  · exact isWritten_of_mem_exponential hds h
  · rw [hlayout] at h
    exact (mem_positional hds h).imp_right Or.inl

theorem head_exponential (hne : ds ≠ []) (hds : ∀ c ∈ ds, c.isDigit = true) :
    ∃ c cs, exponential ds e = c :: cs ∧ c.isDigit = true := by
  match ds, hne with
  | [b], _ => exact ⟨b, _, rfl, hds b List.mem_cons_self⟩
  | b :: b' :: bs, _ => exact ⟨b, _, rfl, hds b List.mem_cons_self⟩

theorem head_positional (hne : ds ≠ []) (hds : ∀ c ∈ ds, c.isDigit = true) :
    ∃ c cs, positional false ds e = c :: cs ∧ c.isDigit = true := by
  match ds, hne with
  | b :: bs, _ =>
    have hb := hds b List.mem_cons_self
    unfold positional
    split
    · exact ⟨'0', _, rfl, rfl⟩
    · dsimp only
      split
      · exact ⟨b, _, rfl, hb⟩
      · exact ⟨b, _, rfl, hb⟩

/-! ### Numbers -/

theorem read?_sign (s : Bool) {cs : List Char} (hcs : ∀ c ∈ cs, IsWritten c)
    (hhead : ∃ c cs', cs = c :: cs' ∧ c.isDigit = true) {d : Decimal} (hd : decimal? cs = some d) :
    read? (Binary64.signText s ++ cs) = some (.decimal s d) := by
  have hall : ∀ c ∈ Binary64.signText s ++ cs, IsWritten c := by
    intro c hc
    rcases List.mem_append.mp hc with hc | hc
    · cases s with
      | false => cases hc
      | true => exact Or.inr (Or.inr (Or.inl (List.mem_singleton.mp hc)))
    · exact hcs c hc
  obtain ⟨c, cs', rfl, hc⟩ := hhead
  rw [read?, plain?_eq hall]
  exact readPlain?_sign s hc hd

/-- **Reading back what is written.** -/
theorem read?_write (s : Bool) {d : Decimal} (h : d.coefficient ≠ 0) (layout : Layout)
    (hlayout : layout.pointZero = false) :
    ∃ d', read? (Binary64.signText s ++ d.write layout) = some (.decimal s d') ∧
      d'.value = d.value := by
  have hne := (exists_digits_eq d).1
  have hds : ∀ c ∈ d.significant, c.isDigit = true := fun _ => isDigit_of_mem_significant
  rw [← scientific_significant h]
  unfold write
  split
  · obtain ⟨d', hd', hvalue⟩ := decimal?_exponential (e := d.leading) hne hds
    exact ⟨d', read?_sign s (fun _ => isWritten_of_mem_exponential hds)
      (head_exponential hne hds) hd', hvalue⟩
  · obtain ⟨d', hd', hvalue⟩ := decimal?_positional (e := d.leading) hne hds
    rw [hlayout]
    refine ⟨d', read?_sign s (fun c hc => ?_) (head_positional hne hds) hd', hvalue⟩
    exact (mem_positional hds hc).imp_right Or.inl

/-- An exponent is written exactly where the layout asks for one. -/
theorem e_mem_write_iff {d : Decimal} {layout : Layout} (hlayout : layout.pointZero = false) :
    'e' ∈ d.write layout ↔ d.leading < layout.least ∨ layout.bound ≤ d.leading := by
  unfold write
  split
  · next h => exact iff_of_true (e_mem_exponential _ _) h
  · next h =>
    refine iff_of_false (fun he => ?_) h
    rw [hlayout] at he
    rcases mem_positional (fun _ => isDigit_of_mem_significant) he with he | he
    · cases he
    · cases he

end Decimal

end Keypad
