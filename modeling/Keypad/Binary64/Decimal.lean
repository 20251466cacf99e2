import Keypad.Binary64.Basic
import Keypad.Decimal.Basic

/-! # Between binary64 numbers and decimals

Every finite number is a decimal, since a unit is `5 ^ 1074 * 10 ^ -1074`; `ofDecimal` goes back to
the number nearest to a decimal. -/

namespace Keypad

/-- The exact decimal value of a magnitude.  The factors of two that every magnitude of its size has
are taken out first, as far as they go into one, so that fewer digits are needed. -/
def Magnitude.toDecimal (m : Magnitude) : Decimal :=
  let k := min (m.units.log2 - 52) 1074
  ⟨m.units / 2 ^ k * 5 ^ (1074 - k), (k : Int) - 1074⟩

namespace Binary64

/-- The number nearest to a signed decimal.  A decimal of `10 ^ 310` or more is infinite and one
below `10 ^ -330` is zero; what the exponent and the size of the coefficient tell about this spares
the powers of ten beyond. -/
def ofDecimal (negative : Bool) (d : Decimal) : Binary64 :=
  if d.coefficient = 0 then zero negative
  else if 310 ≤ d.exponent then .infinite negative
  else if d.exponent + (d.coefficient.log2 + 1) < -330 then zero negative
  else if d.exponent < 0 then
    ofQuotient negative (d.coefficient * unitsPerOne) (10 ^ d.exponent.natAbs)
  else ofQuotient negative (d.coefficient * 10 ^ d.exponent.natAbs * unitsPerOne) 1

end Binary64

end Keypad
