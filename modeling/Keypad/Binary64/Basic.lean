import Keypad.Rounding

/-! # Binary64 numbers

A binary64 number is a NaN, a signed infinity, or a signed magnitude.  Every finite magnitude is a
whole number of *units*, a unit being `2 ^ -1074`, the smallest positive one; it has at most 53
binary digits and lies below `2 ^ 1024`, that is below `2 ^ 2098` units.  All arithmetic is exact
arithmetic on units followed by one rounding, `ofQuotient`.  Zero has a sign, and there is a single
NaN. -/

namespace Keypad

/-- The number of units in one. -/
def unitsPerOne : Nat := 2 ^ 1074

/-- The number of units in `2 ^ 1024`, where the finite magnitudes end. -/
def unitLimit : Nat := 2 ^ 2098

theorem unitLimit_pos : 0 < unitLimit := by decide +kernel

/-- A finite magnitude as a number of units: at most 53 significant binary digits, no overflow. -/
structure Magnitude where
  units : Nat
  granular : 2 ^ (units.log2 - 52) ∣ units
  bounded : units < unitLimit
  deriving DecidableEq

/-- A number of the binary64 format. -/
inductive Binary64 where
  | nan
  | infinite (negative : Bool)
  | finite (negative : Bool) (magnitude : Magnitude)
  deriving DecidableEq

/-- `num / den` units rounded to the nearest number with at most 53 significant binary digits, a tie
to the even one.  The quotient has `log2 + 1` digits before its point, of which all but 53 are
dropped. -/
def roundUnits (num den : Nat) : Nat :=
  let k := (num / den).log2 - 52
  roundHalfEven num (den * 2 ^ k) * 2 ^ k

theorem granular_mul_pow {m k : Nat} (h : m ≤ 2 ^ 53) :
    2 ^ ((m * 2 ^ k).log2 - 52) ∣ m * 2 ^ k := by
  by_cases hz : m * 2 ^ k = 0
  · rw [hz]; exact Nat.dvd_zero _
  rcases Nat.lt_or_eq_of_le h with hlt | heq
  · have hlog : (m * 2 ^ k).log2 < 53 + k := by
      rw [Nat.log2_lt hz, Nat.pow_add]
      exact Nat.mul_lt_mul_of_pos_right hlt (Nat.two_pow_pos k)
    exact Nat.dvd_trans (Nat.pow_dvd_pow 2 (by omega)) (Nat.dvd_mul_left _ _)
  · rw [heq, ← Nat.pow_add, Nat.log2_two_pow]
    exact Nat.pow_dvd_pow 2 (by omega)

theorem roundUnits_granular (num den : Nat) :
    2 ^ ((roundUnits num den).log2 - 52) ∣ roundUnits num den := by
  refine granular_mul_pow (Nat.le_trans (roundHalfEven_le _ _) ?_)
  rw [← Nat.div_div_eq_div_mul]
  have hq : num / den < 2 ^ 53 * 2 ^ ((num / den).log2 - 52) := by
    rw [← Nat.pow_add]
    exact Nat.lt_of_lt_of_le Nat.lt_log2_self (Nat.pow_le_pow_right (by decide) (by omega))
  exact Nat.div_lt_of_lt_mul (Nat.mul_comm _ _ ▸ hq)

namespace Magnitude

/-- The whole part of a magnitude. -/
def whole (m : Magnitude) : Nat := m.units / unitsPerOne

/-- Whether a magnitude is a whole number. -/
def isWhole (m : Magnitude) : Bool := m.units % unitsPerOne == 0

end Magnitude

namespace Binary64

/-- Zero with a sign. -/
def zero (negative : Bool) : Binary64 :=
  .finite negative ⟨0, Nat.dvd_zero _, unitLimit_pos⟩

instance : Inhabited Binary64 := ⟨zero false⟩

/-- The number nearest to `num / den` units, infinite from `2 ^ 1024` on. -/
def ofQuotient (negative : Bool) (num den : Nat) : Binary64 :=
  if h : roundUnits num den < unitLimit then
    .finite negative ⟨roundUnits num den, roundUnits_granular num den, h⟩
  else .infinite negative

/-! ## Signs and order -/

/-- The number with the opposite sign; NaN has none. -/
def neg : Binary64 → Binary64
  | .nan => .nan
  | .infinite s => .infinite (!s)
  | .finite s m => .finite (!s) m

instance : Neg Binary64 := ⟨neg⟩

/-- The number without its sign. -/
def abs : Binary64 → Binary64
  | .nan => .nan
  | .infinite _ => .infinite false
  | .finite _ m => .finite false m

/-- The signed number of units of a finite number. -/
def signedUnits (negative : Bool) (m : Magnitude) : Int :=
  if negative then -(m.units : Int) else m.units

/-- The order of the numbers: NaN is comparable with nothing, both zeros are equal. -/
def le : Binary64 → Binary64 → Bool
  | .nan, _ => false
  | _, .nan => false
  | .infinite s, .infinite t => s || !t
  | .infinite s, .finite _ _ => s
  | .finite _ _, .infinite t => !t
  | .finite s a, .finite t b => signedUnits s a ≤ signedUnits t b

instance : LE Binary64 := ⟨fun x y => x.le y = true⟩

instance (x y : Binary64) : Decidable (x ≤ y) := inferInstanceAs (Decidable (x.le y = true))

/-- Numeric equality: each is at most the other, so a NaN differs from itself. -/
def sameValue (x y : Binary64) : Bool := x.le y && y.le x

/-- Strictly below zero. -/
def isNegative (x : Binary64) : Bool := x.le (zero false) && !(zero false).le x

/-- Neither a NaN nor infinite, and without a fractional part. -/
def isWhole : Binary64 → Bool
  | .finite _ m => m.isWhole
  | _ => false

end Binary64

end Keypad
