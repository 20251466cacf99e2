import Keypad.Files.Script
import Keypad.Text.Digit

/-! # The command line

The program takes one argument, the path of a script, and writes its transcript beside it.  Before
the mark `--` an argument that begins with a hyphen is an option, unless it is a lone hyphen, a
negative number or holds a space; the only options are `-h` and `--help`, which may be abbreviated
to any beginning of at least two hyphens.  The first of them ends the run; an unknown option, a
value given to them, or any number of paths but one is an error of usage, and so is a path that is
no file. -/

namespace Keypad.CommandLine

open Text (pieces digitValue?)

/-! ## Arguments -/

/-- What an argument before the mark is taken for. -/
inductive Argument where
  | operand
  | help
  /-- The help option with a value that it does not take. -/
  | helpWithValue
  | unknownOption
  deriving DecidableEq

/-- Whether a text is not empty and all digits. -/
def isDigits (cs : List Char) : Bool := !cs.isEmpty && cs.all fun c => (digitValue? c).isSome

/-- Whether a text is a negative number: a hyphen and digits, at most one point before the last of
them.  A line feed may follow. -/
def isNegativeNumber (cs : List Char) : Bool :=
  match cs with
  | '-' :: body =>
    let body := if body.getLast? == some '\n' then body.dropLast else body
    match pieces (· == '.') body with
    | [whole] => isDigits whole
    | [whole, fraction] => (whole.isEmpty || isDigits whole) && isDigits fraction
    | _ => false
  | _ => false

/-- What the characters after `-h` make of it.  Letters `h` repeat the option, and they may follow
an equals sign; anything else is a value. -/
def shortHelp : List Char → Argument
  | [] => .help
  | '=' :: [] => .helpWithValue
  | '=' :: cs => if cs.all (· == 'h') then .help else .helpWithValue
  | cs => if cs.all (· == 'h') then .help else .helpWithValue

/-- What an argument of two hyphens and more characters is: an abbreviation of `--help`, with or
without a value after an equals sign, or another option. -/
def longOption (cs : List Char) : Option Argument :=
  let name := cs.takeWhile (· != '=')
  if name.isPrefixOf "--help".toList then
    some (if name.length < cs.length then .helpWithValue else .help)
  else none

/-- What an argument is. -/
def classify (argument : String) : Argument :=
  let cs := argument.toList
  let other : Argument :=
    if isNegativeNumber cs || cs.contains ' ' then .operand else .unknownOption
  match cs with
  | '-' :: 'h' :: after => shortHelp after
  | '-' :: '-' :: _ => (longOption cs).getD other
  | '-' :: _ :: _ => other
  | _ => .operand

/-- What the arguments ask for. -/
inductive Request where
  | script (path : String)
  | help
  | usageError
  deriving DecidableEq

/-- The first mention of the help option, with or without a value. -/
def firstHelp? (arguments : List Argument) : Option Argument :=
  arguments.find? fun a => a == .help || a == .helpWithValue

/-- The mark after which no argument is an option. -/
def endOfOptions : String := "--"

/-- Reads the arguments. -/
def Request.ofArguments (arguments : List String) : Request :=
  let before := arguments.takeWhile (· != endOfOptions)
  let after := (arguments.dropWhile (· != endOfOptions)).tail
  let kinds := before.map classify
  match firstHelp? kinds with
  | some .help => .help
  | some _ => .usageError
  | none =>
    if kinds.contains .unknownOption then .usageError
    else match before ++ after with
      | [path] => .script path
      | _ => .usageError

/-! ## Runs -/

/-- How a run ends without a transcript. -/
inductive Stop where
  | help
  | usageError
  | noName (error : Path.NoName)
  | script (error : ScriptError)
  deriving DecidableEq

/-- The exit code of a run that ended with a message about its arguments. -/
def Stop.exitCode? : Stop → Option Nat
  | .help => some 0
  | .usageError => some 2
  | _ => none

/-- What a run leaves behind: its log, the files, and how it was stopped, if it was. -/
structure Run where
  log : List Log.Entry
  tree : FileTree
  stop : Option Stop

/-- The log entry at the start of a replay. -/
def startEntry (input : Path) : Log.Entry := ⟨.info, "▶️ Replaying " ++ input.toText⟩

/-- Why a path is not accepted, if it is not that of a file. -/
def refusal? (t : FileTree) (p : Path) : Option Stop :=
  match t.read p with
  | .ok _ => none
  | .error .nameTooLong => some (.script (.file .nameTooLong))
  | .error _ => some .usageError

/-- Replays the script at a path and writes the transcript beside it. -/
def replay (t : FileTree) (input : Path) : Run :=
  match refusal? t input, input.transcript with
  | some stop, _ => ⟨[], t, some stop⟩
  | none, .error e => ⟨[], t, some (.noName e)⟩
  | none, .ok output =>
    let r := Script.replay .standard t input output
    ⟨startEntry input :: r.log, r.tree, r.error.map .script⟩

/-- Runs the program on the arguments of its command line. -/
def run (t : FileTree) (arguments : List String) : Run :=
  match Request.ofArguments arguments with
  | .help => ⟨[], t, some .help⟩
  | .usageError => ⟨[], t, some .usageError⟩
  | .script path => replay t (.ofText path)

end Keypad.CommandLine
