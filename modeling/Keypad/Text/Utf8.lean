/-! # Decoding UTF-8

The decoder reads one octet after another.  Between characters it expects a first octet, which
fixes how many continuation octets follow and the range of the next one; a narrower range excludes
overlong forms, surrogates and code points beyond `U+10FFFF`.  The first octet that fits nowhere
ends the decoding with an error that gives the positions of the octets it spoils. -/

namespace Keypad.Text

/-- What is wrong with an octet sequence. -/
inductive Utf8Fault where
  | invalidStart
  | invalidContinuation
  | unexpectedEnd
  deriving DecidableEq

/-- Undecodable octets: those from position `first` up to, but without, position `stop`; `octet` is
the first of them. -/
structure Utf8Error where
  fault : Utf8Fault
  octet : UInt8
  first : Nat
  stop : Nat
  deriving DecidableEq

/-- A character whose continuation octets are still to come. -/
structure PartialChar where
  /-- Position of the first octet. -/
  start : Nat
  /-- The first octet. -/
  lead : UInt8
  /-- Continuation octets still missing. -/
  owed : Nat
  /-- Least value of the next octet. -/
  low : UInt8
  /-- Greatest value of the next octet. -/
  high : UInt8
  /-- The bits read so far. -/
  bits : Nat

/-- What a first octet above `0x7f` begins. -/
def PartialChar.begin? (start : Nat) (b : UInt8) : Option PartialChar :=
  if 0xc2 ≤ b && b ≤ 0xdf then some ⟨start, b, 1, 0x80, 0xbf, b.toNat % 32⟩
  else if b = 0xe0 then some ⟨start, b, 2, 0xa0, 0xbf, b.toNat % 16⟩
  else if b = 0xed then some ⟨start, b, 2, 0x80, 0x9f, b.toNat % 16⟩
  else if 0xe1 ≤ b && b ≤ 0xef then some ⟨start, b, 2, 0x80, 0xbf, b.toNat % 16⟩
  else if b = 0xf0 then some ⟨start, b, 3, 0x90, 0xbf, b.toNat % 8⟩
  else if 0xf1 ≤ b && b ≤ 0xf3 then some ⟨start, b, 3, 0x80, 0xbf, b.toNat % 8⟩
  else if b = 0xf4 then some ⟨start, b, 3, 0x80, 0x8f, b.toNat % 8⟩
  else none

/-- Decodes the octets from a position on; `pending` is the character that they continue. -/
def decodeFrom (position : Nat) (pending : Option PartialChar) :
    List UInt8 → Except Utf8Error (List Char)
  | [] =>
    match pending with
    | none => .ok []
    | some p => .error ⟨.unexpectedEnd, p.lead, p.start, position⟩
  | b :: bs =>
    match pending with
    | none =>
      if b < 0x80 then (Char.ofNat b.toNat :: ·) <$> decodeFrom (position + 1) none bs
      else match PartialChar.begin? position b with
        | none => .error ⟨.invalidStart, b, position, position + 1⟩
        | some p => decodeFrom (position + 1) (some p) bs
    | some p =>
      if p.low ≤ b && b ≤ p.high then
        let bits := p.bits * 64 + b.toNat % 64
        if p.owed ≤ 1 then (Char.ofNat bits :: ·) <$> decodeFrom (position + 1) none bs
        else
          decodeFrom (position + 1)
            (some { p with owed := p.owed - 1, low := 0x80, high := 0xbf, bits := bits }) bs
      else .error ⟨.invalidContinuation, p.lead, p.start, position⟩

/-- The text that an octet sequence encodes. -/
def decodeUtf8 (octets : List UInt8) : Except Utf8Error (List Char) :=
  decodeFrom 0 none octets

/-- The reason given for a fault. -/
def Utf8Fault.reason : Utf8Fault → String
  | .invalidStart => "invalid start byte"
  | .invalidContinuation => "invalid continuation byte"
  | .unexpectedEnd => "unexpected end of data"

end Keypad.Text
