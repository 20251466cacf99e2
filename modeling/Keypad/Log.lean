/-! # Log entries

Operations describe what happened as entries of increasing severity; which of them are shown is
decided by a threshold. -/

namespace Keypad.Log

/-- The severity of an entry. -/
inductive Level where
  | debug
  | info
  | warning
  | error
  | critical
  deriving DecidableEq, Inhabited

/-- The levels from the least to the most severe. -/
def Level.all : List Level := [.debug, .info, .warning, .error, .critical]

/-- The name of a level. -/
def Level.name : Level → String
  | .debug => "DEBUG"
  | .info => "INFO"
  | .warning => "WARNING"
  | .error => "ERROR"
  | .critical => "CRITICAL"

/-- The level of a name. -/
def Level.ofName? (s : String) : Option Level := Level.all.find? (·.name = s)

/-- The position of a level among the levels. -/
def Level.severity (l : Level) : Nat := Level.all.idxOf l

/-- An entry of the log. -/
structure Entry where
  level : Level
  text : String
  deriving DecidableEq

/-- The entries at least as severe as the threshold. -/
def shown (threshold : Level) (entries : List Entry) : List Entry :=
  entries.filter fun e => threshold.severity ≤ e.level.severity

end Keypad.Log
