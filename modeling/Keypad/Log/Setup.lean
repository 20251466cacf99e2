import Keypad.Input.Scalar
import Keypad.Log

/-! # Setting up the log

The threshold of the log is given explicitly or taken from the environment; without either it is
`INFO`.  An environment that names no level is reported by a warning, and the threshold is `INFO`;
an explicit value that names none is refused. -/

namespace Keypad.Log

/-- The name of the log. -/
def loggerName : String := "button_calculator"

/-- The environment variable that holds the level, in lower case. -/
def levelVariable : String := "button_calculator_log_level"

/-- The field that a level is given in. -/
def levelField : String := "log_level"

/-- The capital of a letter.  Outside ASCII only the dotless i has a capital that occurs in the name
of a level. -/
def capital (c : Char) : Char := if c = 'ı' then 'I' else c.toUpper

/-- Reads a level: its name in any case. -/
def Level.check (d : Datum) : Checked Level :=
  let refused := .error [⟨.notLiteral (all.map name), [.field levelField]⟩]
  match d with
  | .text s => (ofName? (String.ofList (s.toList.map capital))).elim refused .ok
  | _ => refused

/-- A log that has been set up. -/
structure Setup where
  level : Level
  /-- Handlers added; the log of a running program has one already. -/
  newHandlers : Nat
  entries : List Entry

/-- A log with a threshold. -/
def Setup.atLevel (level : Level) : Setup := ⟨level, 0, []⟩

/-- The value of a variable whose name is given in any case; the last definition counts. -/
def valueOf? (environment : List (String × String)) (name : String) : Option String :=
  (environment.reverse.find? fun (key, _) =>
    String.ofList (key.toList.map Char.toLower) = name).map (·.2)

/-- The level that the environment asks for. -/
def Level.ofEnvironment (environment : List (String × String)) : Checked Level :=
  match valueOf? environment levelVariable with
  | none => .ok .info
  | some value => Level.check (.text value)

/-- The log set up from the environment. -/
def Setup.ofEnvironment (environment : List (String × String)) : Setup :=
  match Level.ofEnvironment environment with
  | .ok level => .atLevel level
  | .error issues =>
    let reason := (issues.head?.map (·.complaint.message)).getD ""
    ⟨.info, 0, [⟨.warning, "⚙️❌ Invalid logging settings, using INFO: " ++ reason⟩]⟩

end Keypad.Log
