import Keypad.Binary64.Shortest
import Keypad.Text.Quoted

/-! # Loosely typed values

Settings, states and outcomes can be given as loosely typed values, which are then checked.  Whole
numbers and other numbers are told apart. -/

namespace Keypad

/-- A loosely typed value. -/
inductive Datum where
  | null
  | bool (b : Bool)
  | int (n : Int)
  | real (x : Binary64)
  | text (s : String)
  | list (items : List Datum)
  | record (fields : List (String × Datum))

namespace Datum

/-- The value of a field: the last one of this name. -/
def field? (fields : List (String × Datum)) (name : String) : Option Datum :=
  (fields.reverse.find? (·.1 = name)).map (·.2)

mutual

/-- How a value is spelled inside another one. -/
def spellNested : Datum → String
  | .null => "None"
  | .bool b => if b then "True" else "False"
  | .int n => toString n
  | .real x => String.ofList x.writeShortest
  | .text s => Text.quoted s
  | .list items => "[" ++ ", ".intercalate (spellItems items) ++ "]"
  | .record fields => "\x7b" ++ ", ".intercalate (spellFields fields) ++ "\x7d"

/-- How the items of a list are spelled. -/
def spellItems : List Datum → List String
  | [] => []
  | d :: ds => spellNested d :: spellItems ds

/-- How the fields of a record are spelled. -/
def spellFields : List (String × Datum) → List String
  | [] => []
  | (name, d) :: rest => (Text.quoted name ++ ": " ++ spellNested d) :: spellFields rest

end

/-- How a value is spelled in a message: a text as it is. -/
def spell : Datum → String
  | .text s => s
  | d => d.spellNested

end Datum

end Keypad
