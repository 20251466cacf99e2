import Keypad.Binary64.Significant

/-! # The shortest text that reads back

A number is written with the fewest digits of which the nearest number is that number; of several
such decimals the nearest one is taken, and of two equally near ones the even one.  Seventeen digits
always suffice.  The text is positional for leading exponents from `-4` to `15` and shows that the
number need not be whole by a point. -/

namespace Keypad.Binary64

/-- Of the two decimals with `count` digits around a magnitude, the nearer one that reads back as
that magnitude.  A tie goes to the even one. -/
def nearestReadable? (m : Magnitude) (count : Nat) : Option Decimal :=
  let d := m.toDecimal
  let drop := d.digits.length - count
  let unit := 10 ^ drop
  let below : Decimal := ⟨d.coefficient / unit, d.exponent + drop⟩
  let above : Decimal := ⟨d.coefficient / unit + 1, d.exponent + drop⟩
  let nearest := d.roundTo count
  let other := if nearest.coefficient = below.coefficient then above else below
  [nearest, other].find? fun c => ofDecimal false c == .finite false m

/-- The decimal with the fewest digits that reads back as a magnitude. -/
def shortestDecimal (m : Magnitude) : Decimal :=
  ((List.range 17).findSome? fun n => nearestReadable? m (n + 1)).getD m.toDecimal

/-- Exponents from `-4` to `15` are avoided, and a whole number ends with `.0`. -/
def shortestLayout : Decimal.Layout := ⟨-4, 16, true⟩

/-- The shortest text of a number. -/
def writeShortest : Binary64 → List Char
  | .nan => "nan".toList
  | .infinite negative => signText negative ++ "inf".toList
  | .finite negative m => signText negative ++ (shortestDecimal m).write shortestLayout

end Keypad.Binary64
