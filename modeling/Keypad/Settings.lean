import Keypad.Binary64.Decimal

/-! # Settings

What a calculator can be set to.  The bounds are part of the type: the tolerance is not negative
(and not NaN), 1 to 17 digits are shown, and neither text is empty. -/

namespace Keypad

/-- The settings of a calculator. -/
structure Settings where
  /-- Divisors not farther from zero than this are refused. -/
  zeroTolerance : Binary64
  /-- Significant digits shown of a result. -/
  significantDigits : Nat
  /-- The display after a failed evaluation. -/
  errorText : String
  /-- The display of an empty expression. -/
  emptyDisplay : String
  zero_le_zeroTolerance : Binary64.zero false ≤ zeroTolerance
  significantDigits_pos : 1 ≤ significantDigits
  significantDigits_le : significantDigits ≤ 17
  errorText_ne_empty : errorText ≠ ""
  emptyDisplay_ne_empty : emptyDisplay ≠ ""

namespace Settings

/-- The settings of a calculator that nobody has set. -/
def standard : Settings where
  zeroTolerance := .ofDecimal false ⟨1, -12⟩
  significantDigits := 12
  errorText := "Error"
  emptyDisplay := "0"
  zero_le_zeroTolerance := by decide +kernel
  significantDigits_pos := by decide
  significantDigits_le := by decide
  errorText_ne_empty := by decide
  emptyDisplay_ne_empty := by decide

instance : Inhabited Settings := ⟨standard⟩

end Settings

end Keypad
