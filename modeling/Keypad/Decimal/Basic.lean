import Keypad.Rounding

/-! # Decimal numbers

A decimal is `coefficient * 10 ^ exponent`.  Its digits are those of the coefficient, its leading
exponent is the power of ten of the first of them, and `roundTo count` keeps `count` of them, a half
going to the even neighbour.  A layout says for which leading exponents a decimal is written
positionally; otherwise it is written with one digit before the point and an exponent mark. -/

namespace Keypad

/-- The number `coefficient * 10 ^ exponent`. -/
structure Decimal where
  coefficient : Nat
  exponent : Int
  deriving DecidableEq

namespace Decimal

/-- The digits of the coefficient, the most significant first. -/
def digits (d : Decimal) : List Char := Nat.toDigits 10 d.coefficient

/-- The power of ten of the first digit; that of zero is `0`. -/
def leading (d : Decimal) : Int :=
  if d.coefficient = 0 then 0 else d.digits.length - 1 + d.exponent

/-- A decimal cut to at most `count` digits.  A carry out of the first digit leaves a power of ten
with one digit more, all of them zeros but the first. -/
def roundTo (count : Nat) (d : Decimal) : Decimal :=
  let drop := d.digits.length - count
  ⟨roundHalfEven d.coefficient (10 ^ drop), d.exponent + drop⟩

/-- The digits without the zeros at their end; the first digit always stays. -/
def significant (d : Decimal) : List Char :=
  match d.digits with
  | [] => []
  | c :: cs => c :: (cs.reverse.dropWhile (· == '0')).reverse

/-! ## Layout -/

/-- How a decimal is laid out. -/
structure Layout where
  /-- Least leading exponent that is written positionally. -/
  least : Int
  /-- Least leading exponent above those. -/
  bound : Int
  /-- Whether a whole number written positionally ends with a point and a zero. -/
  pointZero : Bool

/-- The mark of an exponent: its sign and at least two digits. -/
def exponentMark (e : Int) : List Char :=
  let ds := Nat.toDigits 10 e.natAbs
  'e' :: (if e < 0 then '-' else '+') :: (List.replicate (2 - ds.length) '0' ++ ds)

/-- One digit, a point if digits follow, and the exponent mark. -/
def exponential (ds : List Char) (e : Int) : List Char :=
  match ds with
  | [] => exponentMark e
  | [c] => c :: exponentMark e
  | c :: cs => c :: '.' :: cs ++ exponentMark e

/-- Digits with the leading exponent `e`, written without an exponent mark. -/
def positional (pointZero : Bool) (ds : List Char) (e : Int) : List Char :=
  if e < 0 then '0' :: '.' :: (List.replicate (e.natAbs - 1) '0' ++ ds)
  else
    let whole := e.toNat + 1
    if ds.length ≤ whole then
      ds ++ List.replicate (whole - ds.length) '0' ++ (if pointZero then ['.', '0'] else [])
    else ds.take whole ++ '.' :: ds.drop whole

/-- A decimal in a layout. -/
def write (layout : Layout) (d : Decimal) : List Char :=
  if d.leading < layout.least ∨ layout.bound ≤ d.leading then exponential d.significant d.leading
  else positional layout.pointZero d.significant d.leading

end Decimal

end Keypad
