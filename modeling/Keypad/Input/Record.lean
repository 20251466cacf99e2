import Keypad.Input.Scalar
import Keypad.Outcome
import Keypad.Expression

/-! # Checking records

Settings, expressions and outcomes as records of loosely typed fields.  Fields are checked in the
order of the type; unknown fields are ignored.  Settings cannot be changed once they exist; the
fields of an expression can, each change being checked like the field. -/

namespace Keypad

open Datum (field?)

namespace Checked

variable {α : Type}

/-- Checks a field that may be left out. -/
def optional (fields : List (String × Datum)) (name : String) (default : α)
    (check : Datum → Checked α) : Checked α :=
  match field? fields name with
  | none => .ok default
  | some d => .within (.field name) (check d)

/-- Checks a field that must be there. -/
def required (fields : List (String × Datum)) (name : String)
    (check : Datum → Checked α) : Checked α :=
  match field? fields name with
  | none => .error [⟨.missing, [.field name]⟩]
  | some d => .within (.field name) (check d)

end Checked

/-- Whether a name is one that checks do not apply to. -/
def isHiddenName (name : String) : Bool := name.toList.head? == some '_'

/-! ## Settings -/

namespace Settings

/-- A tolerance: a number that is not negative. -/
def checkTolerance (d : Datum) : Except Complaint { x : Binary64 // Binary64.zero false ≤ x } := do
  let x ← d.number
  if h : Binary64.zero false ≤ x then .ok ⟨x, h⟩ else .error (.below 0)

/-- A count of digits: an integer from 1 to 17. -/
def checkDigits (d : Datum) : Except Complaint { n : Nat // 1 ≤ n ∧ n ≤ 17 } := do
  let n ← d.integer
  if h : 1 ≤ n.toNat ∧ n.toNat ≤ 17 then .ok ⟨n.toNat, h⟩
  else if n < 1 then .error (.below 1)
  else .error (.above 17)

/-- A text that is not empty. -/
def checkText (d : Datum) : Except Complaint { s : String // s ≠ "" } := do
  let s ← d.string
  if h : s ≠ "" then .ok ⟨s, h⟩ else .error .emptyText

/-- The settings given by some fields, the others being standard. -/
def ofFields (fields : List (String × Datum)) : Checked Settings :=
  let tolerance := Checked.optional fields "zero_tolerance"
    ⟨standard.zeroTolerance, standard.zero_le_zeroTolerance⟩
    fun d => .ofComplaint (checkTolerance d)
  let digits := Checked.optional fields "significant_digits"
    ⟨standard.significantDigits, standard.significantDigits_pos, standard.significantDigits_le⟩
    fun d => .ofComplaint (checkDigits d)
  let errorText := Checked.optional fields "error_text"
    ⟨standard.errorText, standard.errorText_ne_empty⟩ fun d => .ofComplaint (checkText d)
  let emptyDisplay := Checked.optional fields "empty_display"
    ⟨standard.emptyDisplay, standard.emptyDisplay_ne_empty⟩ fun d => .ofComplaint (checkText d)
  (tolerance.both (digits.both (errorText.both emptyDisplay))).map
    fun (tolerance, digits, errorText, emptyDisplay) =>
      { zeroTolerance := tolerance.1
        significantDigits := digits.1
        errorText := errorText.1
        emptyDisplay := emptyDisplay.1
        zero_le_zeroTolerance := tolerance.2
        significantDigits_pos := digits.2.1
        significantDigits_le := digits.2.2
        errorText_ne_empty := errorText.2
        emptyDisplay_ne_empty := emptyDisplay.2 }

/-- What is wrong with changing a setting afterwards. -/
def changeIssues (name : String) : List Issue :=
  if isHiddenName name then [] else [⟨.frozen, [.field name]⟩]

end Settings

/-! ## Expressions -/

namespace Expression

/-- A list of texts. -/
def checkTokens : Datum → Checked (List String)
  | .list items => .items (fun d => .ofComplaint d.string) 0 items
  | _ => .error [⟨.notList, []⟩]

/-- A truth value. -/
def checkAwaitingReset (d : Datum) : Checked Bool := .ofComplaint d.boolean

/-- The expression given by some fields, the others being empty. -/
def ofFields (fields : List (String × Datum)) : Checked Expression :=
  (Checked.both (Checked.optional fields "expression" [] checkTokens)
    (Checked.optional fields "awaiting_reset" false checkAwaitingReset)).map
    fun (tokens, awaitingReset) => ⟨tokens, awaitingReset⟩

/-- The expression with another value of a field. -/
def assign (e : Expression) (name : String) (d : Datum) : Checked Expression :=
  if name = "expression" then
    (Checked.within (.field name) (checkTokens d)).map fun tokens => { e with tokens := tokens }
  else if name = "awaiting_reset" then
    (Checked.within (.field name) (checkAwaitingReset d)).map
      fun awaitingReset => { e with awaitingReset := awaitingReset }
  else if isHiddenName name then .ok e
  else .error [⟨.noField name, [.field name]⟩]

end Expression

/-! ## Outcomes -/

/-- The kinds of failure. -/
def FaultKind.all : List FaultKind := [.divisionByZero, .invalidOperator, .malformedExpression]

/-- Reads the name of a kind. -/
def FaultKind.check (d : Datum) : Except Complaint FaultKind :=
  let refused := .error (.notMember (all.map name))
  match d with
  | .text s => (all.find? (·.name = s)).elim refused .ok
  | _ => refused

namespace Outcome

/-- The status of a success. -/
def successTag : String := "ok"

/-- The status of a failure. -/
def failureTag : String := "error"

/-- The status that an outcome is expected to have. -/
def checkStatus (fields : List (String × Datum)) (tag : String) : Checked String :=
  Checked.optional fields "status" tag fun d => .ofComplaint (d.literal [tag])

/-- The success given by its fields. -/
def successOfFields (fields : List (String × Datum)) : Checked Outcome :=
  ((checkStatus fields successTag).both
    (.both (Checked.required fields "expression" fun d => .ofComplaint d.string)
      (Checked.required fields "result" fun d => .ofComplaint d.number))).map
    fun (_, expression, result) => .success expression result

/-- The failure given by its fields. -/
def failureOfFields (fields : List (String × Datum)) : Checked Outcome :=
  ((checkStatus fields failureTag).both
    (.both (Checked.required fields "expression" fun d => .ofComplaint d.string)
      (.both (Checked.required fields "error" fun d => .ofComplaint (FaultKind.check d))
        (Checked.required fields "message" fun d => .ofComplaint d.string)))).map
    fun (_, expression, kind, message) => .failure expression kind message

/-- The outcome given by a record whose status tells successes from failures. -/
def ofDatum : Datum → Checked Outcome
  | .record fields =>
    match field? fields "status" with
    | none => .error [⟨.noTag "status", []⟩]
    | some tag =>
      let found := tag.spell
      let known := match tag with
        | .text _ => true
        | _ => false
      if known && found = successTag then .within (.field successTag) (successOfFields fields)
      else if known && found = failureTag then .within (.field failureTag) (failureOfFields fields)
      else .error [⟨.unknownTag "status" found [successTag, failureTag], []⟩]
  | _ => .error [⟨.notRecord, []⟩]

end Outcome

end Keypad
