import Keypad.Binary64.Basic

/-! # The 64-bit encoding

From the highest bit down a word holds the sign, 11 bits of exponent and 52 bits of fraction.  An
exponent field `e` with `0 < e < 2047` stands for `(2 ^ 52 + fraction) * 2 ^ (e - 1)` units, the
field `0` for `fraction` units, and the field `2047` for an infinity (fraction `0`) or a NaN. -/

namespace Keypad.Binary64

/-- The number that a 64-bit word encodes.  Every word with a finite exponent field has at most 53
significant digits, so `ofQuotient` keeps it as it is. -/
def ofBits (word : UInt64) : Binary64 :=
  let n := word.toNat
  let negative := n / 2 ^ 63 == 1
  let field := n / 2 ^ 52 % 2 ^ 11
  let fraction := n % 2 ^ 52
  if field = 2047 then
    if fraction = 0 then .infinite negative else .nan
  else if field = 0 then ofQuotient negative fraction 1
  else ofQuotient negative ((2 ^ 52 + fraction) * 2 ^ (field - 1)) 1

/-- Exponent field and fraction of a magnitude, as one number. -/
def magnitudeBits (m : Magnitude) : Nat :=
  if m.units < 2 ^ 52 then m.units
  else
    let k := m.units.log2 - 52
    (k + 1) * 2 ^ 52 + (m.units / 2 ^ k - 2 ^ 52)

/-- The word that encodes a number; NaN is written with the highest fraction bit alone. -/
def toBits : Binary64 → UInt64
  | .nan => 0x7ff8000000000000
  | .infinite s => if s then 0xfff0000000000000 else 0x7ff0000000000000
  | .finite s m => UInt64.ofNat ((if s then 2 ^ 63 else 0) + magnitudeBits m)

end Keypad.Binary64
