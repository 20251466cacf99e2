import Keypad.Binary64.Decimal
import Keypad.Text.Blank
import Keypad.Text.Digit

/-! # Numerals

A numeral is an optional sign followed by digits with at most one point among them, at least one
digit, and an optional exponent; or one of the words `inf`, `infinity` and `nan` in any case.
Decimal digits of every script count as digits, white space around a numeral is ignored, and a
single underscore may stand between two digits.  `Numeral.read?` gives the exact meaning of a
numeral, `Numeral.value` the binary64 number nearest to it. -/

namespace Keypad

/-- The exact meaning of a numeral. -/
inductive Numeral where
  | decimal (negative : Bool) (magnitude : Decimal)
  | infinity (negative : Bool)
  | nan
  deriving DecidableEq

namespace Numeral

/-- The binary64 number nearest to a numeral. -/
def value : Numeral → Binary64
  | .decimal negative d => .ofDecimal negative d
  | .infinity negative => .infinite negative
  | .nan => .nan

/-! ## Spelling -/

/-- A character as numerals are spelled: digits of other scripts become ASCII digits and blank
characters outside ASCII become spaces; other characters outside ASCII belong to no numeral. -/
def plainChar? (c : Char) : Option Char :=
  if c.toNat < 0x80 then some c
  else if Text.isBlank c then some ' '
  else (Text.digitValue? c).map Nat.digitChar

/-- The white space that may surround a numeral. -/
def isSpace (c : Char) : Bool := c = ' ' || (0x09 ≤ c.toNat && c.toNat ≤ 0x0d)

/-- Removes the underscores between two digits; there may be no other underscore. -/
def dropUnderscores (afterDigit : Bool) : List Char → Option (List Char)
  | [] => some []
  | c :: cs =>
    if c = '_' then
      if afterDigit && (cs.head?.any Char.isDigit) then dropUnderscores false cs else none
    else (dropUnderscores c.isDigit cs).map (c :: ·)

/-- The plain spelling of a numeral: ASCII, trimmed, without underscores. -/
def plain? (cs : List Char) : Option (List Char) := do
  let cs ← cs.mapM plainChar?
  dropUnderscores false (Text.trim isSpace cs)

/-! ## Grammar -/

/-- An optional sign, and whether it is a minus. -/
def splitSign : List Char → Bool × List Char
  | '-' :: cs => (true, cs)
  | '+' :: cs => (false, cs)
  | cs => (false, cs)

/-- The digits at the start of a text, and the rest. -/
def splitDigits (cs : List Char) : List Char × List Char :=
  (cs.takeWhile Char.isDigit, cs.dropWhile Char.isDigit)

/-- The fraction digits at the start of a text, if a point introduces them, and the rest. -/
def splitFraction : List Char → List Char × List Char
  | '.' :: cs => splitDigits cs
  | cs => ([], cs)

/-- The number that a run of digits stands for. -/
def ofDigits (ds : List Char) : Nat := Nat.ofDigitChars 10 ds 0

/-- The exponent that ends a numeral; none is zero. -/
def exponent? : List Char → Option Int
  | [] => some 0
  | c :: cs =>
    if c = 'e' || c = 'E' then
      let (negative, ds) := splitSign cs
      if !ds.isEmpty && ds.all Char.isDigit then
        some (if negative then -(ofDigits ds : Int) else ofDigits ds)
      else none
    else none

/-- The decimal that unsigned digits, fraction and exponent stand for. -/
def decimal? (cs : List Char) : Option Decimal :=
  let (whole, rest) := splitDigits cs
  let (fraction, rest) := splitFraction rest
  if whole.isEmpty && fraction.isEmpty then none
  else (exponent? rest).map fun e => ⟨ofDigits (whole ++ fraction), e - fraction.length⟩

/-- Reads a numeral in plain spelling. -/
def readPlain? (cs : List Char) : Option Numeral :=
  let (negative, body) := splitSign cs
  let word := body.map Char.toLower
  if word = "inf".toList || word = "infinity".toList then some (.infinity negative)
  else if word = "nan".toList then some .nan
  else (decimal? body).map (.decimal negative)

/-- Reads a numeral. -/
def read? (cs : List Char) : Option Numeral := (plain? cs).bind readPlain?

end Numeral

end Keypad
