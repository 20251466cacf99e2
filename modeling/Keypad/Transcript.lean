import Keypad.Session
import Keypad.Text.Line

/-! # Transcripts of key scripts

A script is a text of key labels separated by blank characters.  Its keys are pressed on one
session, and every line that is not blank gives one entry of the transcript: the trimmed line and
the display after its last key.  The first text that is no label ends the replay with the number of
its line, blank lines counted. -/

namespace Keypad.Transcript

/-- Presses keys given by their labels, up to the first that is refused.  The log entries of the
keys before it remain. -/
def pressAll (s : Session) : List String → List Log.Entry × Except KeyRefusal Session
  | [] => ([], .ok s)
  | label :: rest =>
    match s.pressLabel label with
    | .error refusal => ([], .error refusal)
    | .ok (next, log) =>
      let (later, result) := pressAll next rest
      (log ++ later, result)

/-- An unusable key in a script. -/
structure Failure where
  line : Nat
  refusal : KeyRefusal
  deriving DecidableEq

/-- The message for an unusable key. -/
def Failure.message (f : Failure) : String := s!"Line {f.line}: " ++ f.refusal.message

/-- A line without the blank characters at its ends. -/
def trimmed (line : String) : String := String.ofList (Text.trim Text.isBlank line.toList)

/-- The entry of a line. -/
def entry (line display : String) : String := line ++ " => " ++ display

/-- The log entry of a line. -/
def logEntry (number : Nat) (entry : String) : Log.Entry :=
  ⟨.info, s!"⌨️ Line {number}: " ++ entry⟩

/-- Replays the lines from a line number on. -/
def replayFrom (number : Nat) (s : Session) :
    List String → List Log.Entry × Except Failure (List String)
  | [] => ([], .ok [])
  | line :: rest =>
    let line := trimmed line
    if line.isEmpty then replayFrom (number + 1) s rest
    else
      match pressAll s (Token.split line) with
      | (log, .error refusal) => (log, .error ⟨number, refusal⟩)
      | (log, .ok next) =>
        let shown := entry line next.display
        let (later, result) := replayFrom (number + 1) next rest
        (log ++ logEntry number shown :: later, result.map (shown :: ·))

/-- Replays the lines of a script on a fresh session. -/
def replay (settings : Settings) (lines : List String) :
    List Log.Entry × Except Failure (List String) :=
  replayFrom 1 (.start settings) lines

/-- The lines of a script. -/
def scriptLines (text : List Char) : List String := (Text.lines text).map String.ofList

/-- The text of a transcript: each entry followed by a line feed. -/
def text (entries : List String) : String := String.join (entries.map (· ++ "\n"))

end Keypad.Transcript
