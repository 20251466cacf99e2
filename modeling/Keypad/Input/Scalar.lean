import Keypad.Decimal.Numeral
import Keypad.Input.Datum
import Keypad.Input.Issue

/-! # Reading scalars

A scalar may be given in a form that stands for a value of another type: numbers as texts, whole
numbers as numbers without fraction, truth values as words or as `0` and `1`. -/

namespace Keypad.Datum

open Text (trim isWhiteSpace)

/-! ## Underscores between digits -/

/-- Whether two underscores follow each other. -/
def hasDoubleUnderscore : List Char → Bool
  | '_' :: '_' :: _ => true
  | _ :: cs => hasDoubleUnderscore cs
  | [] => false

/-- A text without its underscores, if it has any and they are single and inside. -/
def dropUnderscores? (cs : List Char) : Option (List Char) :=
  if cs.contains '_' && cs.head? != some '_' && cs.getLast? != some '_' && !hasDoubleUnderscore cs
  then some (cs.filter (· != '_'))
  else none

/-! ## Numbers -/

/-- The number that a text stands for.  Underscores are allowed only where no space is. -/
def numberOfText? (s : String) : Option Binary64 :=
  let cs := s.toList
  let direct := Numeral.readPlain? (trim isWhiteSpace cs)
  let joined := (dropUnderscores? cs).bind Numeral.readPlain?
  (direct <|> joined).map Numeral.value

/-- The number nearest to an integer, if it is finite. -/
def numberOfInt? (n : Int) : Option Binary64 :=
  match Binary64.ofDecimal (n < 0) ⟨n.natAbs, 0⟩ with
  | .finite s m => some (.finite s m)
  | _ => none

/-- Reads a number. -/
def number : Datum → Except Complaint Binary64
  | .bool b => .ok (.ofDecimal false ⟨b.toNat, 0⟩)
  | .int n => (numberOfInt? n).elim (.error .notNumber) .ok
  | .real x => .ok x
  | .text s => (numberOfText? s).elim (.error .unreadableNumber) .ok
  | _ => .error .notNumber

/-! ## Integers -/

/-- The longest run of digits that is read as an integer. -/
def integerLimit : Nat := 4300

/-- Reads an integer in plain spelling: a minus or nothing, and digits that do not begin with a
needless zero.  Too many digits are refused before anything that follows them is looked at. -/
def integerOfPlain (cs : List Char) : Except Complaint Int :=
  let (negative, body) := match cs with
    | '-' :: body => (true, body)
    | body => (false, body)
  let ds := body.takeWhile Char.isDigit
  if ds.head? == some '0' && body.length != 1 then .error .unreadableInteger
  else if integerLimit < ds.length then .error .integerTooLong
  else if ds.isEmpty || ds.length < body.length then .error .unreadableInteger
  else .ok (if negative then -(Numeral.ofDigits ds : Int) else Numeral.ofDigits ds)

/-- Drops the zeros, with underscores among them, before another digit or a minus.  One zero stays
before a point or at the end. -/
def dropZeros (previous : Char) : List Char → Option (List Char)
  | [] => some [previous]
  | c :: cs =>
    if c = '0' || c = '_' then dropZeros c cs
    else if c.isDigit || c = '-' then some (c :: cs)
    else if c = '.' then some (previous :: c :: cs)
    else none

/-- Drops the zeros at the start of a text, which must start with a digit. -/
def dropLeadingZeros : List Char → Option (List Char)
  | [] => none
  | c :: cs =>
    if c = '0' then dropZeros c cs
    else if c.isDigit then some (c :: cs)
    else none

/-- Drops a point that is followed by zeros, at least one, and nothing else. -/
def dropPointZeros (cs : List Char) : List Char :=
  let whole := cs.takeWhile (· != '.')
  let fraction := (cs.dropWhile (· != '.')).tail
  if !fraction.isEmpty && fraction.all (· == '0') then whole else cs

/-- The plain spelling of an integer text: without blanks at its ends, a plus, needless zeros at
the start, a fraction of zeros and underscores. -/
def plainInteger? (cs : List Char) : Option (List Char) := do
  let (negative, cs) := Numeral.splitSign (trim isWhiteSpace cs)
  let cs := dropPointZeros (← dropLeadingZeros cs)
  let cs := (dropUnderscores? cs).getD cs
  return if negative then '-' :: cs else cs

/-- Reads an integer text: as it stands, or else in its plain spelling.  Only a text that is too
long as it stands is told from other unreadable ones. -/
def integerOfText (cs : List Char) : Except Complaint Int :=
  match integerOfPlain cs with
  | .error .integerTooLong => .error .integerTooLong
  | .error _ =>
    ((plainInteger? cs).bind (integerOfPlain · |>.toOption)).elim (.error .unreadableInteger) .ok
  | .ok n => .ok n

/-- The integer that a number is. -/
def integerOfNumber : Binary64 → Except Complaint Int
  | .finite negative m =>
    if !m.isWhole then .error .fractional
    else if m.whole < 2 ^ 63 then .ok (if negative then -(m.whole : Int) else m.whole)
    else .error .integerTooLong
  | _ => .error .notFinite

/-- Reads an integer. -/
def integer : Datum → Except Complaint Int
  | .bool b => .ok b.toNat
  | .int n => .ok n
  | .real x => integerOfNumber x
  | .text s => integerOfText s.toList
  | _ => .error .notInteger

/-! ## Truth values -/

/-- The words for true. -/
def trueWords : List String := ["1", "on", "t", "true", "y", "yes"]

/-- The words for false. -/
def falseWords : List String := ["0", "off", "f", "false", "n", "no"]

/-- The truth value that an integer stands for. -/
def booleanOfInt (n : Int) : Except Complaint Bool :=
  if n = 0 then .ok false
  else if n = 1 then .ok true
  else if -(2 : Int) ^ 63 ≤ n && n < 2 ^ 63 then .error .unreadableBoolean
  else .error .notBoolean

/-- Reads a truth value. -/
def boolean : Datum → Except Complaint Bool
  | .bool b => .ok b
  | .int n => booleanOfInt n
  | .real x =>
    match integerOfNumber x with
    | .ok n => booleanOfInt n
    | .error _ => .error .notBoolean
  | .text s =>
    let word := String.ofList (s.toList.map Char.toLower)
    if trueWords.contains word then .ok true
    else if falseWords.contains word then .ok false
    else .error .unreadableBoolean
  | _ => .error .notBoolean

/-! ## Texts -/

/-- Reads a text. -/
def string : Datum → Except Complaint String
  | .text s => .ok s
  | _ => .error .notText

/-- Reads one of some texts. -/
def literal (allowed : List String) : Datum → Except Complaint String
  | .text s => if allowed.contains s then .ok s else .error (.notLiteral allowed)
  | _ => .error (.notLiteral allowed)

end Keypad.Datum
