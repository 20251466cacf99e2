import Keypad.Binary64.Decimal

/-! # Numbers with a given count of significant digits

The display shows a whole number below `2 ^ 53` with all its digits and nothing else.  Every other
number is rounded to the given count of significant digits, a half to even; zeros at the end are
dropped, and an exponent is written when the leading exponent is below `-4` or not below the count.
A whole number of `2 ^ 53` or more need not be exact, hence the limit. -/

namespace Keypad.Binary64

/-- The sign written before a number. -/
def signText (negative : Bool) : List Char := if negative then ['-'] else []

/-- Where the whole numbers end that are all numbers of the format. -/
def wholeLimit : Nat := 2 ^ 53

/-- The digits of a whole number below the limit; zero has no sign. -/
def plainWhole? : Binary64 → Option (List Char)
  | .finite negative m =>
    if m.isWhole && m.whole < wholeLimit then
      some (signText (negative && m.whole != 0) ++ Nat.toDigits 10 m.whole)
    else none
  | _ => none

/-- Exponents from `-4` up to the count of digits are avoided; no zero is added after a point. -/
def significantLayout (count : Nat) : Decimal.Layout := ⟨-4, count, false⟩

/-- A number rounded to a count of significant digits, at least one. -/
def writeSignificant (count : Nat) : Binary64 → List Char
  | .nan => "nan".toList
  | .infinite negative => signText negative ++ "inf".toList
  | .finite negative m =>
    let count := max count 1
    signText negative ++ (m.toDecimal.roundTo count).write (significantLayout count)

/-- The text that the display shows for a number. -/
def display (count : Nat) (x : Binary64) : String :=
  String.ofList (x.plainWhole?.getD (writeSignificant count x))

/-! ## Counts outside the usual range -/

/-- Why a count of digits is refused. -/
inductive CountError where
  | negative
  | tooBig
  | tooLong
  deriving DecidableEq

/-- The reason given for refusing a count. -/
def CountError.message : CountError → String
  | .negative => "Format specifier missing precision"
  | .tooBig => "precision too big"
  | .tooLong => "Too many decimal digits in format string"

/-- A count of digits fits in 31 bits; one that does not even fit in 63 bits is too long. -/
def checkCount (count : Int) : Except CountError Nat :=
  if count < 0 then .error .negative
  else if 2 ^ 63 ≤ count then .error .tooLong
  else if 2 ^ 31 ≤ count then .error .tooBig
  else .ok count.toNat

/-- The display text for any count whatsoever; a plain whole number needs no count. -/
def display? (count : Int) (x : Binary64) : Except CountError String :=
  match x.plainWhole? with
  | some cs => .ok (String.ofList cs)
  | none => (checkCount count).map fun n => String.ofList (writeSignificant n x)

end Keypad.Binary64
