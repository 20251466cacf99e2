/-! # What is wrong with a value

An issue names the place in the checked value and the rule that it breaks.  A check of several
fields reports the issues of all of them, in the order of the fields. -/

namespace Keypad

/-- A step towards a part of a value. -/
inductive Place where
  | field (name : String)
  | index (i : Nat)
  deriving DecidableEq

/-- A rule that a value can break. -/
inductive Complaint where
  | missing
  | notNumber
  | unreadableNumber
  | notInteger
  | unreadableInteger
  | integerTooLong
  | notFinite
  | fractional
  | notText
  | emptyText
  | notList
  | notBoolean
  | unreadableBoolean
  | below (least : Nat)
  | above (greatest : Nat)
  | notLiteral (allowed : List String)
  | notMember (allowed : List String)
  | notRecord
  | noTag (name : String)
  | unknownTag (name found : String) (allowed : List String)
  | frozen
  | noField (name : String)
  deriving DecidableEq

namespace Complaint

/-- A text between single quotes. -/
def named (s : String) : String := "'" ++ s ++ "'"

/-- A choice of texts: `'a', 'b' or 'c'`. -/
def choice : List String → String
  | [] => ""
  | [s] => named s
  | [s, t] => named s ++ " or " ++ named t
  | s :: rest => named s ++ ", " ++ choice rest

/-- The name of a rule. -/
def code : Complaint → String
  | .missing => "missing"
  | .notNumber => "float_type"
  | .unreadableNumber => "float_parsing"
  | .notInteger => "int_type"
  | .unreadableInteger => "int_parsing"
  | .integerTooLong => "int_parsing_size"
  | .notFinite => "finite_number"
  | .fractional => "int_from_float"
  | .notText => "string_type"
  | .emptyText => "string_too_short"
  | .notList => "list_type"
  | .notBoolean => "bool_type"
  | .unreadableBoolean => "bool_parsing"
  | .below _ => "greater_than_equal"
  | .above _ => "less_than_equal"
  | .notLiteral _ => "literal_error"
  | .notMember _ => "enum"
  | .notRecord => "model_attributes_type"
  | .noTag _ => "union_tag_not_found"
  | .unknownTag _ _ _ => "union_tag_invalid"
  | .frozen => "frozen_instance"
  | .noField _ => "no_such_attribute"

/-- The message for a broken rule. -/
def message : Complaint → String
  | .missing => "Field required"
  | .notNumber => "Input should be a valid number"
  | .unreadableNumber => "Input should be a valid number, unable to parse string as a number"
  | .notInteger => "Input should be a valid integer"
  | .unreadableInteger => "Input should be a valid integer, unable to parse string as an integer"
  | .integerTooLong => "Unable to parse input string as an integer, exceeded maximum size"
  | .notFinite => "Input should be a finite number"
  | .fractional => "Input should be a valid integer, got a number with a fractional part"
  | .notText => "Input should be a valid string"
  | .emptyText => "String should have at least 1 character"
  | .notList => "Input should be a valid list"
  | .notBoolean => "Input should be a valid boolean"
  | .unreadableBoolean => "Input should be a valid boolean, unable to interpret input"
  | .below least => s!"Input should be greater than or equal to {least}"
  | .above greatest => s!"Input should be less than or equal to {greatest}"
  | .notLiteral allowed => "Input should be " ++ choice allowed
  | .notMember allowed => "Input should be " ++ choice allowed
  | .notRecord => "Input should be a valid dictionary or object to extract fields from"
  | .noTag name => "Unable to extract tag using discriminator " ++ named name
  | .unknownTag name found allowed =>
    "Input tag " ++ named found ++ " found using " ++ named name ++
      " does not match any of the expected tags: " ++ ", ".intercalate (allowed.map named)
  | .frozen => "Instance is frozen"
  | .noField name => "Object has no attribute " ++ named name

end Complaint

/-- A broken rule and where it is broken. -/
structure Issue where
  complaint : Complaint
  place : List Place
  deriving DecidableEq

/-- The result of a check: a value, or all issues. -/
abbrev Checked (α : Type) := Except (List Issue) α

namespace Checked

variable {α β : Type}

/-- Two checks: both values, or the issues of both in this order. -/
def both : Checked α → Checked β → Checked (α × β)
  | .ok a, .ok b => .ok (a, b)
  | .ok _, .error issues => .error issues
  | .error issues, .ok _ => .error issues
  | .error issues, .error more => .error (issues ++ more)

/-- A check of a part: its issues are found below a place. -/
def within (place : Place) (check : Checked α) : Checked α :=
  check.mapError (·.map fun issue => { issue with place := place :: issue.place })

/-- A check of a whole value. -/
def ofComplaint (result : Except Complaint α) : Checked α :=
  result.mapError fun complaint => [⟨complaint, []⟩]

/-- Checks of the items of a list: all values, or the issues of all items, each with its index. -/
def items (check : α → Checked β) (start : Nat) : List α → Checked (List β)
  | [] => .ok []
  | a :: rest =>
    (both (within (.index start) (check a)) (items check (start + 1) rest)).map
      fun (b, bs) => b :: bs

end Checked

end Keypad
