import Keypad.Operator
import Keypad.Token

/-! # Keys

The keypad has 17 keys: the ten digits, the point, the four operators, `=` and `C`.  A key is known
by its label. -/

namespace Keypad

/-- The text of a single character. -/
def single? (s : String) : Option Char :=
  match s.toList with
  | [c] => some c
  | _ => none

theorem single?_eq_some_iff {s : String} {c : Char} :
    single? s = some c ↔ s = String.ofList [c] := by
  unfold single?
  constructor
  · intro h
    split at h
    · next d hd =>
      cases h
      rw [← hd, String.ofList_toList]
    · cases h
  · rintro rfl
    simp

/-- A key that types a character of a number. -/
structure NumberKey where
  char : Char
  isNumberChar : Token.isNumberChar char = true
  deriving DecidableEq

namespace NumberKey

/-- The label of a number key. -/
def label (k : NumberKey) : String := String.ofList [k.char]

/-- The number key with a label. -/
def ofLabel? (s : String) : Option NumberKey :=
  (single? s).bind fun c => if h : Token.isNumberChar c = true then some ⟨c, h⟩ else none

@[simp] theorem ofLabel?_label (k : NumberKey) : ofLabel? k.label = some k := by
  have hs : single? k.label = some k.char := single?_eq_some_iff.mpr rfl
  simp [ofLabel?, hs, k.isNumberChar]

/-- A number key is read from its label and from nothing else. -/
theorem ofLabel?_eq_some_iff {s : String} {k : NumberKey} : ofLabel? s = some k ↔ s = k.label := by
  constructor
  · intro h
    obtain ⟨c, hc, hk⟩ := Option.bind_eq_some_iff.mp h
    split at hk
    · cases hk
      exact single?_eq_some_iff.mp hc
    · cases hk
  · rintro rfl
    exact ofLabel?_label k

/-- The point key. -/
def point : NumberKey := ⟨'.', rfl⟩

/-- Whether a number key is a digit. -/
def isDigit (k : NumberKey) : Bool := k.char.isDigit

end NumberKey

/-- A key. -/
inductive Key where
  | number (key : NumberKey)
  | operator (op : Operator)
  | equals
  | clear
  deriving DecidableEq

namespace Key

/-- The label of a key. -/
def label : Key → String
  | .number k => k.label
  | .operator op => op.symbol
  | .equals => "="
  | .clear => "C"

/-- The key with a label. -/
def ofLabel? (s : String) : Option Key :=
  if s = "=" then some .equals
  else if s = "C" then some .clear
  else match Operator.ofSymbol? s with
    | some op => some (.operator op)
    | none => (NumberKey.ofLabel? s).map .number

/-- The label of a number key is that of no other key. -/
theorem number_label_ne (k : NumberKey) {c : Char} (h : Token.isNumberChar c = false) :
    k.label ≠ String.ofList [c] := by
  intro he
  have hc : k.char = c := by simpa [NumberKey.label] using congrArg String.toList he
  rw [← hc, k.isNumberChar] at h
  cases h

@[simp] theorem ofLabel?_label (key : Key) : ofLabel? key.label = some key := by
  cases key with
  | equals => rfl
  | clear => rfl
  | operator op => cases op <;> rfl
  | number k =>
    have hs : Operator.ofSymbol? k.label = none := by
      cases h : Operator.ofSymbol? k.label with
      | none => rfl
      | some op =>
        refine absurd (Operator.ofSymbol?_eq_some_iff.mp h) (number_label_ne k ?_)
        cases op <;> rfl
    have he : k.label ≠ "=" := number_label_ne k rfl
    have hc : k.label ≠ "C" := number_label_ne k rfl
    simp [ofLabel?, label, hs, he, hc]

/-- A key is read from its label and from nothing else. -/
theorem ofLabel?_eq_some_iff {s : String} {key : Key} : ofLabel? s = some key ↔ s = key.label := by
  constructor
  · intro h
    unfold ofLabel? at h
    split at h
    · next he => cases h; exact he
    · split at h
      · next hc => cases h; exact hc
      · split at h
        · next op hop => cases h; exact Operator.ofSymbol?_eq_some_iff.mp hop
        · obtain ⟨k, hk, rfl⟩ := Option.map_eq_some_iff.mp h
          exact NumberKey.ofLabel?_eq_some_iff.mp hk
  · rintro rfl
    exact ofLabel?_label key

end Key

/-- Why a text is refused as a key. -/
inductive KeyRefusal where
  /-- It is no digit and no point. -/
  | notNumberKey (text : String)
  /-- It is no digit. -/
  | notDigit (text : String)
  /-- It is no operator. -/
  | notOperator (text : String)
  /-- It is the label of no key. -/
  | unknown (text : String)
  deriving DecidableEq

/-- The message for a refused key. -/
def KeyRefusal.message : KeyRefusal → String
  | .notNumberKey s => "Expected a digit or a decimal point, got " ++ Text.quoted s
  | .notDigit s => "Expected a single digit, got " ++ Text.quoted s
  | .notOperator s => "Unsupported operator: " ++ Text.quoted s
  | .unknown s => "Unknown key: " ++ Text.quoted s

end Keypad
