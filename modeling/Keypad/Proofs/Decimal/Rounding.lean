import Keypad.Proofs.Decimal.Value
import Keypad.Proofs.NearestEven

/-! # Rounding to significant digits

`IsRounding count x v` says that `v` is the positive number `x` rounded to `count` significant
digits, a half to even.  It determines `v` (`IsRounding.unique`), and cutting a decimal to its first
digits is such a rounding (`isRounding_roundTo`).

A number `y` that is at least as near to `v` as `x` is usually has the same rounding.  The one
exception is a power of ten `v` with `y` below it, where the digits lie ten times as dense
(`rounding_eq_iff`). -/

namespace Keypad

/-- The weight of the last of `count` significant digits. -/
def lastPlace (count : ℕ) (x : ℚ) : ℚ := 10 ^ (Int.log 10 x + 1 - count)

theorem lastPlace_pos (count : ℕ) (x : ℚ) : 0 < lastPlace count x := by
  unfold lastPlace
  positivity

theorem zpow_log_le {x : ℚ} (hx : 0 < x) : (10 : ℚ) ^ Int.log 10 x ≤ x := by
  exact_mod_cast Int.zpow_log_le_self (by decide) hx

theorem lt_zpow_log (x : ℚ) : x < (10 : ℚ) ^ (Int.log 10 x + 1) := by
  exact_mod_cast Int.lt_zpow_succ_log_self (by decide) x

/-- The ends of a decade in units of the last place. -/
theorem zpow_log_eq {count : ℕ} (hcount : 1 ≤ count) (x : ℚ) :
    (10 : ℚ) ^ Int.log 10 x = ((10 ^ (count - 1) : ℕ) : ℚ) * lastPlace count x := by
  rw [lastPlace, Nat.cast_pow, Nat.cast_ofNat, ← zpow_natCast, ← zpow_add₀ (by norm_num)]
  congr 1
  omega

theorem zpow_log_succ_eq (count : ℕ) (x : ℚ) :
    (10 : ℚ) ^ (Int.log 10 x + 1) = ((10 ^ count : ℕ) : ℚ) * lastPlace count x := by
  rw [lastPlace, Nat.cast_pow, Nat.cast_ofNat, ← zpow_natCast, ← zpow_add₀ (by norm_num)]
  congr 1
  omega

/-- Distances from a multiple, in units. -/
theorem abs_mul_sub {p : ℚ} (hp : 0 < p) (n z : ℚ) : |n * p - z| = |n - z / p| * p := by
  rw [← abs_of_pos hp, ← abs_mul, abs_of_pos hp, sub_mul, div_mul_cancel₀ _ hp.ne']

/-- Multiples that are less than a unit apart are the same. -/
theorem eq_of_abs_mul_sub_lt {n m : ℕ} {p : ℚ} (hp : 0 < p) (h : |(n : ℚ) * p - m * p| < p) :
    n = m := by
  rw [abs_mul_sub hp, mul_div_cancel_right₀ _ hp.ne'] at h
  have hone : |(n : ℚ) - m| < 1 := lt_of_mul_lt_mul_right (by rwa [one_mul]) hp.le
  have hint : |(n : ℤ) - m| < 1 := by exact_mod_cast hone
  have hzero := Int.abs_lt_one_iff.mp hint
  omega

/-- `v` is `x` rounded to `count` significant digits. -/
def IsRounding (count : ℕ) (x v : ℚ) : Prop :=
  ∃ n : ℕ, IsNearestEven (x / lastPlace count x) n ∧ v = n * lastPlace count x

theorem IsRounding.unique {count : ℕ} {x v v' : ℚ} (h : IsRounding count x v)
    (h' : IsRounding count x v') : v = v' := by
  obtain ⟨n, hn, rfl⟩ := h
  obtain ⟨n', hn', rfl⟩ := h'
  rw [hn.unique hn']

namespace Decimal

theorem leading_add_one {d : Decimal} (h : d.coefficient ≠ 0) :
    d.leading + 1 = d.digits.length + d.exponent := by
  unfold leading
  rw [if_neg h]
  omega

/-- **Cutting a decimal rounds its value.** -/
theorem isRounding_roundTo {count : ℕ} {d : Decimal} (h : d.coefficient ≠ 0) :
    IsRounding count d.value (d.roundTo count).value := by
  have hlast : lastPlace count d.value = 10 ^ (d.digits.length + d.exponent - count) := by
    rw [lastPlace, log_value h, leading_add_one h]
  rcases Nat.lt_or_ge count d.digits.length with hlt | hge
  · -- the digits after the first `count` are cut off
    obtain ⟨drop, hdrop⟩ : ∃ drop, d.digits.length = count + drop :=
      ⟨d.digits.length - count, by omega⟩
    have hexp : (d.digits.length : ℤ) + d.exponent - count = d.exponent + drop := by omega
    have hquot : d.value / lastPlace count d.value =
        (d.coefficient : ℕ) / ((10 ^ drop : ℕ) : ℚ) := by
      rw [hlast, hexp, value, zpow_add₀ (by norm_num), zpow_natCast]
      push_cast
      field_simp
    refine ⟨roundHalfEven d.coefficient (10 ^ drop), ?_, ?_⟩
    · rw [hquot]
      exact isNearestEven_roundHalfEven _ (Nat.pow_pos (by decide))
    · rw [hlast, hexp]
      simp [value, roundTo, hdrop]
  · -- nothing is cut off
    obtain ⟨k, hk⟩ : ∃ k, count = d.digits.length + k := ⟨count - d.digits.length, by omega⟩
    have hexp : (d.digits.length : ℤ) + d.exponent - count = d.exponent - k := by omega
    have hsame : d.roundTo count = d := by
      have hone : roundHalfEven d.coefficient 1 = d.coefficient := by
        simpa using roundHalfEven_mul_right d.coefficient (by decide : 0 < 1)
      have hzero : d.digits.length - count = 0 := by omega
      simp [roundTo, hzero, hone]
    have hval : d.value = ((d.coefficient * 10 ^ k : ℕ) : ℚ) * lastPlace count d.value := by
      rw [hlast, hexp, value, zpow_sub₀ (by norm_num), zpow_natCast]
      push_cast
      field_simp
    refine ⟨d.coefficient * 10 ^ k, isNearestEven_of_lt ?_, ?_⟩
    · rw [(div_eq_iff (lastPlace_pos _ _).ne').mpr hval]
      norm_num
    · rw [hsame]
      exact hval

end Decimal

/-! ### Rounding a nearby number -/

theorem IsNearestEven.ge {x : ℚ} {n a : ℕ} (h : IsNearestEven x n) (ha : (a : ℚ) ≤ x) : a ≤ n := by
  by_contra hlt
  have hlow := (abs_le.mp h.near).1
  have hnext : (n : ℚ) + 1 ≤ a := by exact_mod_cast Nat.lt_of_not_le hlt
  linarith

theorem IsNearestEven.le_of_le {x : ℚ} {n a : ℕ} (h : IsNearestEven x n) (ha : x ≤ a) : n ≤ a := by
  by_contra hlt
  have hhigh := (abs_le.mp h.near).2
  have hnext : (a : ℚ) + 1 ≤ n := by exact_mod_cast Nat.lt_of_not_le hlt
  linarith

/-- What is at least as near has the same nearest number. -/
theorem IsNearestEven.of_near {x y : ℚ} {n : ℕ} (h : IsNearestEven x n)
    (hy : |(n : ℚ) - y| ≤ |(n : ℚ) - x|) : IsNearestEven y n where
  near := hy.trans h.near
  even he := h.even (le_antisymm h.near (he ▸ hy))

/-- A power of ten `v` above `y` that `y` misses by more than half of its own last digit. -/
def FallsShort (count : ℕ) (v y : ℚ) : Prop :=
  ∃ k : ℤ, v = 10 ^ k ∧ 10 ^ (k - count) / 2 < 10 ^ k - y

section Again

variable {count : ℕ} {x y v w : ℚ}

theorem IsRounding.zpow_log_le (hcount : 1 ≤ count) (hx : 0 < x) (h : IsRounding count x v) :
    (10 : ℚ) ^ Int.log 10 x ≤ v := by
  have hp := lastPlace_pos count x
  have hlow := Keypad.zpow_log_le hx
  obtain ⟨n, hn, rfl⟩ := h
  rw [zpow_log_eq hcount] at hlow ⊢
  refine mul_le_mul_of_nonneg_right ?_ hp.le
  exact_mod_cast hn.ge ((le_div_iff₀ hp).mpr hlow)

theorem IsRounding.le_zpow_log (h : IsRounding count x v) : v ≤ 10 ^ (Int.log 10 x + 1) := by
  have hp := lastPlace_pos count x
  have hhigh := (lt_zpow_log x).le
  obtain ⟨n, hn, rfl⟩ := h
  rw [zpow_log_succ_eq count] at hhigh ⊢
  refine mul_le_mul_of_nonneg_right ?_ hp.le
  exact_mod_cast hn.le_of_le ((div_le_iff₀ hp).mpr hhigh)

theorem IsRounding.abs_sub_le (h : IsRounding count x v) : |v - x| ≤ lastPlace count x / 2 := by
  have hp := lastPlace_pos count x
  obtain ⟨n, hn, rfl⟩ := h
  have hdist := mul_le_mul_of_nonneg_right hn.near hp.le
  rw [abs_mul_sub hp]
  linarith

theorem fallsShort_zpow_iff {k : ℤ} :
    FallsShort count (10 ^ k) y ↔ (10 : ℚ) ^ (k - count) / 2 < 10 ^ k - y := by
  constructor
  · rintro ⟨k', hk', h⟩
    obtain rfl : k = k' := zpow_right_injective₀ (by norm_num) (by norm_num) hk'
    exact h
  · exact fun h => ⟨k, rfl, h⟩

section Near

variable (hcount : 1 ≤ count) (hx : 0 < x) (hy : 0 < y) (hv : IsRounding count x v)
  (hnear : |y - v| ≤ |x - v|)

include hv hnear in
/-- The nearer number is within half of the last place. -/
theorem near_bounds : v - y ≤ lastPlace count x / 2 ∧ y - v ≤ lastPlace count x / 2 := by
  have hdist := hv.abs_sub_le
  rw [abs_sub_comm] at hdist
  have hbounds := abs_le.mp (hnear.trans hdist)
  constructor <;> linarith

include hcount hx hy hv hnear

/-- In the same decade the nearer number has the same rounding. -/
theorem same_decade (hlog : Int.log 10 y = Int.log 10 x) :
    IsRounding count y v ∧ ¬ FallsShort count v y := by
  have hlow := hv.zpow_log_le hcount hx
  have hhigh := hv.le_zpow_log
  obtain ⟨hbelow, -⟩ := near_bounds hv hnear
  constructor
  · have hplace : lastPlace count y = lastPlace count x := by rw [lastPlace, lastPlace, hlog]
    have hp := lastPlace_pos count x
    obtain ⟨n, hn, rfl⟩ := hv
    refine ⟨n, ?_, by rw [hplace]⟩
    rw [hplace]
    refine hn.of_near ?_
    rw [abs_sub_comm y, abs_sub_comm x, abs_mul_sub hp, abs_mul_sub hp] at hnear
    exact le_of_mul_le_mul_right hnear hp
  · rintro ⟨k, rfl, hshort⟩
    have hle : Int.log 10 x ≤ k := (zpow_le_zpow_iff_right₀ (by norm_num)).mp hlow
    have hge : k ≤ Int.log 10 x + 1 := (zpow_le_zpow_iff_right₀ (by norm_num)).mp hhigh
    rcases (by omega : k = Int.log 10 x ∨ k = Int.log 10 x + 1) with rfl | rfl
    · have hlow' : (10 : ℚ) ^ Int.log 10 x ≤ y := by
        rw [← hlog]
        exact zpow_log_le hy
      have hpos : (0 : ℚ) < 10 ^ (Int.log 10 x - count) := by positivity
      linarith
    · rw [lastPlace] at hbelow
      linarith

omit hx in
/-- A nearer number in the decade above has the same rounding, which is the power of ten between. -/
theorem decade_above (hlog : Int.log 10 y = Int.log 10 x + 1) :
    IsRounding count y v ∧ ¬ FallsShort count v y := by
  have hp := lastPlace_pos count x
  have hq := lastPlace_pos count y
  obtain ⟨-, habove⟩ := near_bounds hv hnear
  have hlow : (10 : ℚ) ^ (Int.log 10 x + 1) ≤ y := by
    rw [← hlog]
    exact zpow_log_le hy
  have hv' : v = 10 ^ (Int.log 10 x + 1) := by
    have hhigh := hv.le_zpow_log
    obtain ⟨n, -, rfl⟩ := hv
    rw [zpow_log_succ_eq count] at hhigh hlow ⊢
    have heq : n = 10 ^ count := by
      refine eq_of_abs_mul_sub_lt hp ?_
      rw [abs_of_nonpos (by linarith)]
      linarith
    rw [heq]
  have hplace : lastPlace count y = 10 * lastPlace count x := by
    rw [lastPlace, lastPlace, hlog, ← zpow_one_add₀ (by norm_num)]
    congr 1
    omega
  have hmultiple : v = ((10 ^ (count - 1) : ℕ) : ℚ) * lastPlace count y := by
    rw [hv', ← hlog, zpow_log_eq hcount]
  refine ⟨⟨10 ^ (count - 1), isNearestEven_of_lt ?_, hmultiple⟩, ?_⟩
  · have hdist : |v - y| < 1 / 2 * lastPlace count y := by
      rw [hplace, abs_of_nonpos (by linarith)]
      linarith
    rw [hmultiple, abs_mul_sub hq] at hdist
    exact lt_of_mul_lt_mul_right hdist hq.le
  · rw [hv', fallsShort_zpow_iff]
    have hpos : (0 : ℚ) < 10 ^ (Int.log 10 x + 1 - count) := by positivity
    linarith

omit hy in
/-- A nearer number in the decade below lies below a power of ten.  It has the same rounding unless
it falls short. -/
theorem decade_below (hlog : Int.log 10 y = Int.log 10 x - 1) (hw : IsRounding count y w) :
    w = v ↔ ¬ FallsShort count v y := by
  have hp := lastPlace_pos count x
  have hq := lastPlace_pos count y
  obtain ⟨hbelow, -⟩ := near_bounds hv hnear
  have hhigh : y < (10 : ℚ) ^ Int.log 10 x := by
    have hlt := lt_zpow_log y
    rwa [hlog, sub_add_cancel] at hlt
  have hv' : v = 10 ^ Int.log 10 x := by
    have hlow := hv.zpow_log_le hcount hx
    obtain ⟨n, -, rfl⟩ := hv
    rw [zpow_log_eq hcount] at hhigh hlow ⊢
    have heq : n = 10 ^ (count - 1) := by
      refine eq_of_abs_mul_sub_lt hp ?_
      rw [abs_of_nonneg (by linarith)]
      linarith
    rw [heq]
  have hplace : lastPlace count y = 10 ^ (Int.log 10 x - count) := by
    rw [lastPlace, hlog, sub_add_cancel]
  have hmultiple : v = ((10 ^ count : ℕ) : ℚ) * lastPlace count y := by
    rw [← zpow_log_succ_eq, hlog, sub_add_cancel, hv']
  have hdist : v - y = |((10 ^ count : ℕ) : ℚ) - y / lastPlace count y| * lastPlace count y := by
    rw [← abs_mul_sub hq, ← hmultiple, abs_of_nonneg (by linarith)]
  rw [hv', fallsShort_zpow_iff, ← hplace, not_lt, ← hv']
  constructor
  · intro hwv
    have hround := hw.abs_sub_le
    rw [hwv] at hround
    exact (le_abs_self _).trans hround
  · intro hle
    have heven : Even (10 ^ count) := (by decide : Even 10).pow_of_ne_zero (by omega)
    refine hw.unique ⟨10 ^ count, ⟨?_, fun _ => heven⟩, hmultiple⟩
    rw [hdist] at hle
    refine le_of_mul_le_mul_right ?_ hq
    linarith

/-- The nearer number is in the same decade or in a neighbouring one. -/
theorem log_near : Int.log 10 x - 1 ≤ Int.log 10 y ∧ Int.log 10 y ≤ Int.log 10 x + 1 := by
  have hlow := hv.zpow_log_le hcount hx
  have hhigh := hv.le_zpow_log
  obtain ⟨hbelow, habove⟩ := near_bounds hv hnear
  have hple : lastPlace count x ≤ 10 ^ Int.log 10 x := by
    have hone : (1 : ℚ) ≤ ((10 ^ (count - 1) : ℕ) : ℚ) := by exact_mod_cast Nat.one_le_pow' _ 9
    rw [zpow_log_eq hcount]
    exact le_mul_of_one_le_left (lastPlace_pos count x).le hone
  constructor
  · refine (Int.zpow_le_iff_le_log (by decide) hy).mp ?_
    push_cast
    rw [zpow_sub_one₀ (by norm_num)]
    linarith
  · refine Int.lt_add_one_iff.mp ((Int.lt_zpow_iff_log_lt (by decide) hy).mp ?_)
    push_cast
    rw [zpow_add_one₀ (by norm_num)] at hhigh ⊢
    rw [zpow_add_one₀ (by norm_num)]
    linarith

end Near

/-- **Rounding a nearby number.**  A number that is at least as near to a rounding as the number
that was rounded has the same rounding, unless it falls short of it. -/
theorem rounding_eq_iff (hcount : 1 ≤ count) (hx : 0 < x) (hy : 0 < y) (hv : IsRounding count x v)
    (hw : IsRounding count y w) (hnear : |y - v| ≤ |x - v|) : w = v ↔ ¬ FallsShort count v y := by
  obtain ⟨hlow, hhigh⟩ := log_near hcount hx hy hv hnear
  rcases (by omega : Int.log 10 y = Int.log 10 x - 1 ∨ Int.log 10 y = Int.log 10 x ∨
    Int.log 10 y = Int.log 10 x + 1) with hlog | hlog | hlog
  · exact decade_below hcount hx hv hnear hlog hw
  · obtain ⟨hsame, hshort⟩ := same_decade hcount hx hy hv hnear hlog
    exact iff_of_true (hw.unique hsame) hshort
  · obtain ⟨hsame, hshort⟩ := decade_above hcount hy hv hnear hlog
    exact iff_of_true (hw.unique hsame) hshort

end Again

end Keypad
