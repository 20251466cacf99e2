import Keypad.Proofs.Binary64.Nearest
import Keypad.Proofs.Decimal.Reading
import Keypad.Proofs.Decimal.Rounding
import Keypad.Proofs.Text.Words
import Keypad.Token

/-! # Reading the display

Every displayed number is read as a number again (`isNumber_display`), but not always as the number
that was displayed.  A plain whole number is.  Any other finite number is read as the number nearest
to its rounding, and the display of that number is the same text but in three cases, which are
listed by `Unsettled` (`display_again_iff`):

* an exponent is written and a plain whole number is read, which is written without one;
* the rounding is too large to be read;
* the rounding is a power of ten and the nearest number falls short of it, into the decade where the
  digits lie closer. -/

namespace Keypad

namespace Binary64

variable {count : ℕ} {s : Bool} {m : Magnitude} {x y : Binary64}

/-! ### Numbers read exactly -/

/-- A decimal with the value of a magnitude is read as that magnitude. -/
theorem ofDecimal_of_value_eq (s : Bool) {d : Decimal} (h : d.value = m.value) :
    ofDecimal s d = .finite s m := by
  have hone : (unitsPerOne : ℚ) ≠ 0 := by exact_mod_cast unitsPerOne_pos.ne'
  have hunits : (decimalUnits d : ℚ) / decimalDen d = m.units := by
    rw [decimalUnits_div, h, Magnitude.value, div_mul_cancel₀ _ hone]
  have hdist := roundUnits_nearest (decimalUnits d) (decimalDen_pos d) m.granular
  rw [hunits, sub_self, abs_zero, abs_nonpos_iff, sub_eq_zero] at hdist
  exact ofDecimal_of_roundUnits_eq s (by exact_mod_cast hdist)

/-! ### Plain whole numbers -/

theorem plainWhole?_eq_some {cs : List Char} (h : x.plainWhole? = some cs) :
    ∃ s m, x = .finite s m ∧ m.value = m.whole ∧ m.whole < wholeLimit ∧
      cs = signText (s && m.whole != 0) ++ Nat.toDigits 10 m.whole := by
  unfold plainWhole? at h
  split at h
  · next s m =>
    split at h
    · next hm =>
      obtain ⟨hwhole, hlt⟩ := by simpa using hm
      refine ⟨s, m, rfl, ?_, hlt, (Option.some.inj h).symm⟩
      have hmod : m.units % unitsPerOne = 0 := by simpa [Magnitude.isWhole] using hwhole
      exact Magnitude.value_eq_natCast_iff.mpr
        (Nat.div_mul_cancel (Nat.dvd_of_mod_eq_zero hmod)).symm
    · cases h
  · cases h

theorem plainWhole?_finite (hvalue : m.value = m.whole) (hlt : m.whole < wholeLimit) :
    (finite s m).plainWhole? = some (signText (s && m.whole != 0) ++ Nat.toDigits 10 m.whole) := by
  have hwhole : m.isWhole = true := by
    rw [Magnitude.isWhole, Magnitude.value_eq_natCast_iff.mp hvalue, Nat.mul_mod_left]
    rfl
  simp [plainWhole?, hwhole, hlt]

theorem display_of_plainWhole? {cs : List Char} (h : x.plainWhole? = some cs) :
    x.display count = String.ofList cs := by
  rw [display, h]
  rfl

theorem read?_toDigits (s : Bool) (w : ℕ) :
    Numeral.read? (signText s ++ Nat.toDigits 10 w) = some (.decimal s ⟨w, 0⟩) := by
  have hds : ∀ c ∈ Nat.toDigits 10 w, c.isDigit = true :=
    fun c => Nat.isDigit_of_mem_toDigits (by decide) (by decide)
  have hne : Nat.toDigits 10 w ≠ [] := Nat.toDigits_ne_nil
  have hread := Numeral.decimal?_digits hds hne
  rw [Numeral.ofDigits, Nat.ofDigitChars_ten_toDigits] at hread
  refine Decimal.read?_sign s (fun c hc => Or.inl (hds c hc)) ?_ hread
  obtain ⟨c, cs, hcs⟩ := List.exists_cons_of_ne_nil hne
  exact ⟨c, cs, hcs, hds c (hcs ▸ List.mem_cons_self)⟩

theorem e_not_mem_plainWhole? {cs : List Char} (h : x.plainWhole? = some cs) : 'e' ∉ cs := by
  obtain ⟨s, m, -, -, -, rfl⟩ := plainWhole?_eq_some h
  intro he
  rcases List.mem_append.mp he with he | he
  · unfold signText at he
    split at he
    · exact absurd (List.mem_singleton.mp he) (by decide)
    · cases he
  · have hdigit := Nat.isDigit_of_mem_toDigits (by decide) (by decide) he
    cases hdigit

/-- **A plain whole number is read as itself**, but for the sign of zero. -/
theorem read?_plainWhole? {cs : List Char} (h : x.plainWhole? = some cs) :
    ∃ s d m, Numeral.read? cs = some (.decimal s d) ∧ ofDecimal s d = .finite s m ∧
      m.value = d.value ∧ (finite s m).plainWhole? = some cs := by
  obtain ⟨s, m, -, hvalue, hlt, rfl⟩ := plainWhole?_eq_some h
  have hdecimal : (⟨m.whole, 0⟩ : Decimal).value = m.value := by
    simp [Decimal.value, hvalue]
  refine ⟨s && m.whole != 0, ⟨m.whole, 0⟩, m, read?_toDigits _ _,
    ofDecimal_of_value_eq _ hdecimal, hdecimal.symm, ?_⟩
  rw [plainWhole?_finite hvalue hlt, Bool.and_assoc, Bool.and_self]

/-! ### Rounded numbers -/

theorem coefficient_toDecimal_ne_zero (h : (finite s m).plainWhole? = none) :
    m.toDecimal.coefficient ≠ 0 := by
  intro h0
  have hzero : m.value = 0 := by
    rw [← m.value_toDecimal, Decimal.value, h0, Nat.cast_zero, zero_mul]
  have hwhole : m.whole = 0 := by
    rw [Magnitude.whole, Magnitude.value_eq_zero_iff.mp hzero, Nat.zero_div]
  have hplain := plainWhole?_finite (s := s) (m := m) (by rw [hzero, hwhole]; rfl)
    (by rw [hwhole]; decide)
  rw [h] at hplain
  cases hplain

theorem display_of_plainWhole?_eq_none (hcount : 1 ≤ count) (h : (finite s m).plainWhole? = none) :
    (finite s m).display count = String.ofList
      (signText s ++ (m.toDecimal.roundTo count).write (significantLayout count)) := by
  have hmax : max count 1 = count := by omega
  rw [display, h]
  simp only [Option.getD_none, writeSignificant, hmax]

theorem value_of_plainWhole?_eq_none (h : (finite s m).plainWhole? = none) : 0 < m.value := by
  rw [← m.value_toDecimal]
  exact Decimal.value_pos (coefficient_toDecimal_ne_zero h)

theorem isRounding_display (count : ℕ) (h : (finite s m).plainWhole? = none) :
    IsRounding count m.value (m.toDecimal.roundTo count).value := by
  have hround : IsRounding count m.toDecimal.value (m.toDecimal.roundTo count).value :=
    Decimal.isRounding_roundTo (coefficient_toDecimal_ne_zero h)
  rwa [m.value_toDecimal] at hround

theorem coefficient_roundTo_ne_zero (hcount : 1 ≤ count) (h : (finite s m).plainWhole? = none) :
    (m.toDecimal.roundTo count).coefficient ≠ 0 := by
  have hpow : (0 : ℚ) < 10 ^ Int.log 10 m.value := by positivity
  have hlow := (isRounding_display count h).zpow_log_le hcount (value_of_plainWhole?_eq_none h)
  exact Decimal.coefficient_ne_zero (hpow.trans_le hlow)

/-- Without an exponent the digits after the first `count` are after the point. -/
theorem log_lt_of_unmarked (hcount : 1 ≤ count) (h : (finite s m).plainWhole? = none)
    (hmark : 'e' ∉ (m.toDecimal.roundTo count).write (significantLayout count)) :
    Int.log 10 m.value < count := by
  have hne := coefficient_roundTo_ne_zero hcount h
  have hlow := (isRounding_display count h).zpow_log_le hcount (value_of_plainWhole?_eq_none h)
  have hlog : Int.log 10 m.value ≤ Int.log 10 (m.toDecimal.roundTo count).value :=
    (Int.zpow_le_iff_le_log (by decide) (Decimal.value_pos hne)).mp (by exact_mod_cast hlow)
  have hleading : (m.toDecimal.roundTo count).leading < count := by
    rw [Decimal.e_mem_write_iff rfl, not_or, not_le] at hmark
    exact hmark.2
  rw [Decimal.log_value hne] at hlog
  omega

/-! ### Words -/

/-- What is not finite is displayed by a word that is read as itself. -/
theorem read?_word (count : ℕ) (hx : ∀ s m, x ≠ .finite s m) :
    ∃ n, Numeral.read? (x.display count).toList = some n ∧ n.value = x ∧
      (∀ s d, n ≠ .decimal s d) ∧ 'e' ∉ (x.display count).toList := by
  have htext : (x.display count).toList = x.plainWhole?.getD (writeSignificant count x) := by
    rw [display, String.toList_ofList]
  rw [htext]
  match x with
  | .nan => exact ⟨.nan, rfl, rfl, nofun, (by decide : 'e' ∉ "nan".toList)⟩
  | .infinite true => exact ⟨.infinity true, rfl, rfl, nofun, (by decide : 'e' ∉ "-inf".toList)⟩
  | .infinite false => exact ⟨.infinity false, rfl, rfl, nofun, (by decide : 'e' ∉ "inf".toList)⟩
  | .finite s m => exact absurd rfl (hx s m)

/-- **A displayed number is a number.** -/
theorem isNumber_display (hcount : 1 ≤ count) (x : Binary64) :
    Token.isNumber (x.display count) = true := by
  have hread : ∀ n, Numeral.read? (x.display count).toList = some n →
      Token.isNumber (x.display count) = true := by
    intro n h
    rw [Token.isNumber, Token.number?, h]
    rfl
  by_cases hx : ∃ s m, x = .finite s m
  · obtain ⟨s, m, rfl⟩ := hx
    cases h : (finite s m).plainWhole? with
    | some cs =>
      obtain ⟨s', d, m', hcs, -⟩ := read?_plainWhole? h
      refine hread (.decimal s' d) ?_
      rw [display_of_plainWhole? h, String.toList_ofList, hcs]
    | none =>
      obtain ⟨d, hd, -⟩ := Decimal.read?_write s (coefficient_roundTo_ne_zero hcount h)
        (significantLayout count) rfl
      refine hread (.decimal s d) ?_
      rw [display_of_plainWhole?_eq_none hcount h, String.toList_ofList, hd]
  · obtain ⟨n, hn, -⟩ := read?_word count fun s m h => hx ⟨s, m, h⟩
    exact hread n hn

theorem isBlank_of_isWritten {c : Char} (h : Numeral.IsWritten c) : Text.isBlank c = false := by
  rcases h with hdigit | rfl | rfl | rfl | rfl
  · have hrange := Numeral.toNat_of_isDigit hdigit
    simp only [Text.isBlank, Text.isWhiteSpace, Text.whiteSpaceRanges, List.any_cons, List.any_nil,
      Bool.or_eq_false_iff, Bool.and_eq_false_iff, decide_eq_false_iff_not, and_true]
    omega
  · decide
  · decide
  · decide
  · decide

theorem isWritten_of_mem_signText {s : Bool} {c : Char} (h : c ∈ signText s) :
    Numeral.IsWritten c := by
  cases s with
  | false => cases h
  | true => exact Or.inr (Or.inr (Or.inl (List.mem_singleton.mp h)))

/-- A finite number is displayed by the characters of written numbers. -/
theorem isWritten_of_mem_display {c : Char} (h : c ∈ ((finite s m).display count).toList) :
    Numeral.IsWritten c := by
  rw [display, String.toList_ofList] at h
  cases hplain : (finite s m).plainWhole? with
  | some cs =>
    obtain ⟨s', m', -, -, -, rfl⟩ := plainWhole?_eq_some hplain
    rw [hplain, Option.getD_some, List.mem_append] at h
    rcases h with h | h
    · exact isWritten_of_mem_signText h
    · exact Or.inl (Nat.isDigit_of_mem_toDigits (by decide) (by decide) h)
  | none =>
    rw [hplain, Option.getD_none, writeSignificant, List.mem_append] at h
    rcases h with h | h
    · exact isWritten_of_mem_signText h
    · exact Decimal.isWritten_of_mem_write rfl h

/-- **A displayed number is one word.** -/
theorem isWord_display (hcount : 1 ≤ count) (x : Binary64) :
    Text.IsWord (x.display count).toList where
  ne_nil := by
    intro hnil
    have hnumber := isNumber_display hcount x
    rw [String.toList_eq_nil_iff.mp hnil] at hnumber
    cases hnumber
  not_blank := by
    match x with
    | .nan => exact Text.forall_not_blank_iff.mpr (by decide : "nan".toList.all _ = true)
    | .infinite true => exact Text.forall_not_blank_iff.mpr (by decide : "-inf".toList.all _ = true)
    | .infinite false => exact Text.forall_not_blank_iff.mpr (by decide : "inf".toList.all _ = true)
    | .finite s m => exact fun c hc => isBlank_of_isWritten (isWritten_of_mem_display hc)

/-! ### Displaying what was read -/

/-- The displayed texts of which the number has another display. -/
inductive Unsettled (count : ℕ) (text : String) : Prop where
  /-- A plain whole number, written with an exponent. -/
  | whole (y : Binary64) (cs : List Char) (marked : 'e' ∈ text.toList)
    (read : Token.number? text = some y) (plain : y.plainWhole? = some cs)
  /-- A decimal that is read as infinite. -/
  | overflow (s : Bool) (d : Decimal) (read : Numeral.read? text.toList = some (.decimal s d))
    (infinite : ofDecimal s d = .infinite s)
  /-- A power of ten, read as a number below it by more than half of that number's last digit. -/
  | powerOfTen (s : Bool) (d : Decimal) (m : Magnitude)
    (read : Numeral.read? text.toList = some (.decimal s d)) (finite : ofDecimal s d = .finite s m)
    (short : FallsShort count d.value m.value)

theorem not_fallsShort_self (v : ℚ) : ¬ FallsShort count v v := by
  rintro ⟨k, rfl, h⟩
  have hpos : (0 : ℚ) < 10 ^ (k - count) := by positivity
  linarith

/-- A text without an exponent is settled if it is read exactly. -/
theorem not_unsettled {text : String} (he : 'e' ∉ text.toList)
    (hexact : ∀ s d, Numeral.read? text.toList = some (.decimal s d) →
      ∃ m, ofDecimal s d = .finite s m ∧ m.value = d.value) : ¬ Unsettled count text := by
  intro h
  cases h with
  | whole y cs marked => exact he marked
  | overflow s d read infinite =>
    obtain ⟨m, hm, -⟩ := hexact s d read
    rw [infinite] at hm
    cases hm
  | powerOfTen s d m read finite short =>
    obtain ⟨m', hm', hvalue⟩ := hexact s d read
    obtain rfl : m = m' := by
      rw [finite] at hm'
      cases hm'
      rfl
    rw [hvalue] at short
    exact not_fallsShort_self _ short

theorem write_whole {d : Decimal} {layout : Decimal.Layout} (hlayout : layout.pointZero = false)
    {w : ℕ} (hw : w ≠ 0) (hd : d.value = w) (he : 'e' ∉ d.write layout) :
    d.write layout = Nat.toDigits 10 w := by
  have hpos : 0 < d.value := by
    rw [hd]
    exact_mod_cast Nat.pos_of_ne_zero hw
  have hvalue : d.value = (⟨w, 0⟩ : Decimal).value := by
    rw [hd]
    simp [Decimal.value]
  rw [Decimal.write_eq_of_value_eq hpos hvalue, Decimal.e_mem_write_iff hlayout] at he
  rw [Decimal.write_eq_of_value_eq hpos hvalue]
  obtain ⟨-, k, hk⟩ := Decimal.exists_digits_eq ⟨w, 0⟩
  have hlength := congrArg List.length hk
  rw [List.length_append, List.length_replicate] at hlength
  have hdigits : 0 < (⟨w, 0⟩ : Decimal).digits.length := Nat.length_toDigits_pos
  have hleading : (⟨w, 0⟩ : Decimal).leading + 1 = (⟨w, 0⟩ : Decimal).digits.length := by
    simpa using Decimal.leading_add_one (d := ⟨w, 0⟩) hw
  unfold Decimal.write Decimal.positional
  rw [if_neg he, if_neg (by omega)]
  dsimp only
  rw [if_pos (by omega), hlayout, if_neg (by decide), List.append_nil]
  have hpad : (⟨w, 0⟩ : Decimal).leading.toNat + 1 - (⟨w, 0⟩ : Decimal).significant.length = k := by
    omega
  rw [hpad, ← hk]
  rfl

/-- A whole number near to a rounding whose last digit is at most one is that rounding. -/
theorem eq_of_isRounding {v z : ℚ} (hv : IsRounding count z v) (hlast : Int.log 10 z < count)
    {w : ℕ} (hnear : |(w : ℚ) - v| ≤ |z - v|) : (w : ℚ) = v := by
  have hp := lastPlace_pos count z
  have hclose := hnear.trans (abs_sub_comm z v ▸ hv.abs_sub_le)
  obtain ⟨k, hk⟩ : ∃ k : ℕ, (k : ℤ) = count - (Int.log 10 z + 1) :=
    ⟨(count - (Int.log 10 z + 1)).toNat, by omega⟩
  have hunit : (10 : ℚ) ^ k * lastPlace count z = 1 := by
    rw [lastPlace, ← zpow_natCast, ← zpow_add₀ (by norm_num), hk]
    simp
  have hwhole : (w : ℚ) = ((w * 10 ^ k : ℕ) : ℚ) * lastPlace count z := by
    push_cast
    rw [mul_assoc, hunit, mul_one]
  obtain ⟨n, -, rfl⟩ := hv
  rw [hwhole] at hclose ⊢
  have heq : w * 10 ^ k = n := eq_of_abs_mul_sub_lt hp (by linarith)
  rw [heq]

/-! ### The display of what was read -/

theorem decimal_inj {cs : List Char} {s s' : Bool} {d d' : Decimal}
    (h : Numeral.read? cs = some (.decimal s d)) (h' : Numeral.read? cs = some (.decimal s' d')) :
    s = s' ∧ d = d' := by
  rw [h] at h'
  simpa using h'

/-- A plain whole number keeps its display. -/
theorem plain_again (count : ℕ) {cs : List Char} (h : x.plainWhole? = some cs)
    (hy : Token.number? (String.ofList cs) = some y) :
    y.display count = String.ofList cs ∧ ¬ Unsettled count (String.ofList cs) := by
  obtain ⟨s, d, m, hread, hfinite, hvalue, hplain⟩ := read?_plainWhole? h
  have hyeq : y = finite s m := by
    rw [Token.number?, String.toList_ofList, hread] at hy
    exact (Option.some.inj hy).symm.trans hfinite
  refine ⟨by rw [hyeq, display_of_plainWhole? hplain], not_unsettled ?_ ?_⟩
  · rw [String.toList_ofList]
    exact e_not_mem_plainWhole? h
  · intro s' d' hread'
    rw [String.toList_ofList] at hread'
    obtain ⟨rfl, rfl⟩ := decimal_inj hread hread'
    exact ⟨m, hfinite, hvalue⟩

section Rounded

variable (hcount : 1 ≤ count) (hx : (finite s m).plainWhole? = none) {d : Decimal}
  (hread : Numeral.read? ((finite s m).display count).toList = some (.decimal s d))
  (hvalue : d.value = (m.toDecimal.roundTo count).value)
include hcount hx hread hvalue

/-- A rounding that is read as a plain whole number keeps its display if it has no exponent. -/
theorem whole_again {m' : Magnitude} {cs : List Char} (hfinite : ofDecimal s d = .finite s m')
    (hnear : m'.IsNearest d.value) (hplain : (finite s m').plainWhole? = some cs) :
    (finite s m').display count = (finite s m).display count ↔
      ¬ Unsettled count ((finite s m).display count) := by
  have hnumber : Token.number? ((finite s m).display count) = some (finite s m') := by
    rw [Token.number?, hread, ← hfinite]
    rfl
  by_cases he : 'e' ∈ ((finite s m).display count).toList
  · have hunsettled : Unsettled count ((finite s m).display count) :=
      .whole _ cs he hnumber hplain
    refine iff_of_false (fun hsame => ?_) (not_not_intro hunsettled)
    rw [← hsame, display_of_plainWhole? hplain, String.toList_ofList] at he
    exact e_not_mem_plainWhole? hplain he
  · have hdisplay := display_of_plainWhole?_eq_none hcount hx
    have hmark : 'e' ∉ (m.toDecimal.roundTo count).write (significantLayout count) := by
      intro hmem
      rw [hdisplay, String.toList_ofList] at he
      exact he (List.mem_append_right _ hmem)
    have hround := isRounding_display count hx
    have hne := coefficient_roundTo_ne_zero hcount hx
    have hlast : Int.log 10 m.value < count := log_lt_of_unmarked hcount hx hmark
    obtain ⟨s', m'', heq, hwhole, hlt, hcs⟩ := plainWhole?_eq_some hplain
    obtain ⟨rfl, rfl⟩ : s = s' ∧ m' = m'' := by simpa using heq
    have hexact : (m'.whole : ℚ) = d.value := by
      have hdist := hnear m
      rw [hwhole, hvalue] at hdist
      rw [hvalue]
      exact eq_of_isRounding hround hlast hdist
    have hw : m'.whole ≠ 0 := by
      intro h0
      have hpos := Decimal.value_pos hne
      rw [← hvalue, ← hexact, h0] at hpos
      simp at hpos
    refine iff_of_true ?_ (not_unsettled he ?_)
    · rw [display_of_plainWhole? hplain, hdisplay, hcs,
        write_whole rfl hw (hvalue.symm.trans hexact.symm) hmark, bne_iff_ne.mpr hw, Bool.and_true]
    · intro s' d' hread'
      obtain ⟨rfl, rfl⟩ := decimal_inj hread hread'
      exact ⟨m', hfinite, hwhole.trans hexact⟩

/-- A rounding that is read as no plain whole number is rounded again. -/
theorem rounded_again {m' : Magnitude} (hfinite : ofDecimal s d = .finite s m')
    (hnear : m'.IsNearest d.value) (hplain : (finite s m').plainWhole? = none) :
    (finite s m').display count = (finite s m).display count ↔
      ¬ Unsettled count ((finite s m).display count) := by
  have hround := isRounding_display count hx
  have hround' := isRounding_display count hplain
  have hpos := value_of_plainWhole?_eq_none hx
  have hpos' := value_of_plainWhole?_eq_none hplain
  have hne := coefficient_roundTo_ne_zero hcount hx
  have hne' := coefficient_roundTo_ne_zero hcount hplain
  have hsame : (finite s m').display count = (finite s m).display count ↔
      (m'.toDecimal.roundTo count).value = (m.toDecimal.roundTo count).value := by
    rw [display_of_plainWhole?_eq_none hcount hx, display_of_plainWhole?_eq_none hcount hplain]
    constructor
    · intro htext
      obtain ⟨d₁, hd₁, hvalue₁⟩ := Decimal.read?_write s hne (significantLayout count) rfl
      obtain ⟨d₂, hd₂, hvalue₂⟩ := Decimal.read?_write s hne' (significantLayout count) rfl
      rw [String.ofList_injective htext, hd₁] at hd₂
      obtain rfl : d₁ = d₂ := by simpa using hd₂
      rw [← hvalue₁, ← hvalue₂]
    · intro hval
      rw [Decimal.write_eq_of_value_eq (Decimal.value_pos hne') hval]
  have hshort : Unsettled count ((finite s m).display count) ↔
      FallsShort count (m.toDecimal.roundTo count).value m'.value := by
    rw [← hvalue]
    constructor
    · intro h
      cases h with
      | whole y cs marked read plain =>
        rw [Token.number?, hread] at read
        obtain rfl : finite s m' = y := hfinite.symm.trans (Option.some.inj read)
        rw [hplain] at plain
        cases plain
      | overflow s' d' read infinite =>
        obtain ⟨rfl, rfl⟩ := decimal_inj hread read
        rw [hfinite] at infinite
        cases infinite
      | powerOfTen s' d' m'' read finite short =>
        obtain ⟨rfl, rfl⟩ := decimal_inj hread read
        rw [hfinite] at finite
        cases finite
        exact short
    · exact .powerOfTen s d m' hread hfinite
  rw [hsame, hshort]
  refine rounding_eq_iff hcount hpos hpos' hround hround' ?_
  rw [← hvalue]
  exact hnear m

end Rounded

/-- **Displaying what was read.**  A displayed number is read as a number with the same display,
unless its text is one of the three kinds that change. -/
theorem display_again_iff (hcount : 1 ≤ count) (x : Binary64)
    (hy : Token.number? (x.display count) = some y) :
    y.display count = x.display count ↔ ¬ Unsettled count (x.display count) := by
  by_cases hx : ∃ s m, x = .finite s m
  · obtain ⟨s, m, rfl⟩ := hx
    cases hx : (finite s m).plainWhole? with
    | some cs =>
      rw [display_of_plainWhole? hx] at hy ⊢
      obtain ⟨hsame, hsettled⟩ := plain_again count hx hy
      exact iff_of_true hsame hsettled
    | none =>
      obtain ⟨d, hread, hvalue⟩ := Decimal.read?_write s (coefficient_roundTo_ne_zero hcount hx)
        (significantLayout count) rfl
      rw [← String.toList_ofList (l := _ ++ _), ← display_of_plainWhole?_eq_none hcount hx] at hread
      obtain rfl : ofDecimal s d = y := by
        rw [Token.number?, hread] at hy
        exact Option.some.inj hy
      rcases ofDecimal_nearest s d with ⟨m', hfinite, hnear⟩ | hinfinite
      · rw [hfinite]
        cases hplain : (finite s m').plainWhole? with
        | some cs => exact whole_again hcount hx hread hvalue hfinite hnear hplain
        | none => exact rounded_again hcount hx hread hvalue hfinite hnear hplain
      · have hunsettled : Unsettled count ((finite s m).display count) :=
          .overflow s d hread hinfinite
        rw [hinfinite]
        refine iff_of_false (fun hsame => ?_) (not_not_intro hunsettled)
        obtain ⟨n, hn, -, hword, -⟩ := read?_word count (x := .infinite s)
          fun _ _ h => Binary64.noConfusion h
        rw [hsame, hread] at hn
        exact hword s d (Option.some.inj hn).symm
  · obtain ⟨n, hread, hvalue, hword, he⟩ := read?_word count fun s m h => hx ⟨s, m, h⟩
    rw [Token.number?, hread] at hy
    obtain rfl : x = y := hvalue.symm.trans (Option.some.inj hy)
    refine iff_of_true rfl (not_unsettled he fun s d hread' => ?_)
    rw [hread] at hread'
    exact absurd (Option.some.inj hread') (hword s d)

-- the largest number, with one digit; and one just above `10 ^ 23`, which is no binary64 number
example : (ofDecimal false ⟨17976931348623157, 292⟩).display 1 = "2e+308" ∧
    (ofDecimal false ⟨2, 308⟩).display 1 = "inf" := by
  decide +kernel

example : (ofDecimal false ⟨100000000000000008388608, 0⟩).display 16 = "1e+23" ∧
    (ofDecimal false ⟨1, 23⟩).display 16 = "9.999999999999999e+22" := by
  decide +kernel

end Binary64

end Keypad
