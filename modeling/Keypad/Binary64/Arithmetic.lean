import Keypad.Binary64.Basic

/-! # Arithmetic on binary64 numbers

The four operations are exact on units and rounded once.  A sum that cancels is `+0`; infinities of
opposite signs cancel to NaN, as do zero times infinity and the quotients `0 / 0` and `∞ / ∞`.
`isClose` compares two numbers by a relative and an absolute tolerance. -/

namespace Keypad.Binary64

/-- The sum. -/
def add : Binary64 → Binary64 → Binary64
  | .nan, _ => .nan
  | _, .nan => .nan
  | .infinite s, .infinite t => if s = t then .infinite s else .nan
  | .infinite s, .finite _ _ => .infinite s
  | .finite _ _, .infinite t => .infinite t
  | .finite s a, .finite t b =>
    if s = t then ofQuotient s (a.units + b.units) 1
    else if b.units < a.units then ofQuotient s (a.units - b.units) 1
    else if a.units < b.units then ofQuotient t (b.units - a.units) 1
    else zero false

/-- The difference: the sum with the opposite number. -/
def sub (x y : Binary64) : Binary64 := x.add y.neg

/-- The product. -/
def mul : Binary64 → Binary64 → Binary64
  | .nan, _ => .nan
  | _, .nan => .nan
  | .infinite s, .infinite t => .infinite (s ^^ t)
  | .infinite s, .finite t b => if b.units = 0 then .nan else .infinite (s ^^ t)
  | .finite s a, .infinite t => if a.units = 0 then .nan else .infinite (s ^^ t)
  | .finite s a, .finite t b => ofQuotient (s ^^ t) (a.units * b.units) unitsPerOne

/-- The quotient. -/
def div : Binary64 → Binary64 → Binary64
  | .nan, _ => .nan
  | _, .nan => .nan
  | .infinite _, .infinite _ => .nan
  | .infinite s, .finite t _ => .infinite (s ^^ t)
  | .finite s _, .infinite t => zero (s ^^ t)
  | .finite s a, .finite t b =>
    if b.units = 0 then if a.units = 0 then .nan else .infinite (s ^^ t)
    else ofQuotient (s ^^ t) (a.units * unitsPerOne) b.units

instance : Add Binary64 := ⟨add⟩
instance : Sub Binary64 := ⟨sub⟩
instance : Mul Binary64 := ⟨mul⟩
instance : Div Binary64 := ⟨div⟩

/-- Whether a number is one of the two infinities. -/
def isInfinite : Binary64 → Bool
  | .infinite _ => true
  | _ => false

/-- Two numbers are close when they are equal, or when neither is infinite and their distance is at
most `relative` times the magnitude of one of them or at most `absolute`. -/
def isClose (x y relative absolute : Binary64) : Bool :=
  if x.sameValue y then true
  else if x.isInfinite || y.isInfinite then false
  else
    let distance := abs (y - x)
    distance.le (abs (relative * y)) || distance.le (abs (relative * x)) || distance.le absolute

end Keypad.Binary64
