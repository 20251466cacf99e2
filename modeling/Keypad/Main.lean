import Keypad.CommandLine
import Keypad.Log.Setup

/-! # The program

Reads the script named on the command line, writes its transcript beside it and reports the log on
standard error.  Archives are not unpacked here, so a script has to be a plain file. -/

namespace Keypad.Main

/-- How the program is called. -/
def usage : String := "usage: keypad [-h] file_path"

/-- Reports log entries that pass the threshold. -/
def report (threshold : Log.Level) (entries : List Log.Entry) : IO Unit :=
  (Log.shown threshold entries).forM fun e =>
    IO.eprintln s!"[{e.level.name}] {Log.loggerName}: {e.text}"

/-- Reports why there is no transcript. -/
def fail (message : String) : IO UInt32 := do
  IO.eprintln message
  return 1

/-- Replays the script at a path and writes the transcript to another path. -/
def replayTo (threshold : Log.Level) (input output : Path) (octets : List UInt8) : IO UInt32 := do
  report threshold [CommandLine.startEntry input]
  match Script.ofFile input (.plain octets) with
  | .error e => fail (e.message?.getD "")
  | .ok text =>
    let (log, result) := Script.transcribe .standard text
    report threshold log
    match result with
    | .error e => fail (e.message?.getD "")
    | .ok entries =>
      IO.FS.writeFile output.toText (Transcript.text entries)
      report threshold [Script.writtenEntry entries.length output]
      return 0

/-- Replays the script at a path, which must be that of a file. -/
def replayFile (threshold : Log.Level) (input : Path) : IO UInt32 := do
  let read : Option ByteArray ←
    try some <$> IO.FS.readBinFile input.toText
    catch _ => pure none
  match read, input.transcript with
  | some octets, .ok output => replayTo threshold input output octets.toList
  | none, _ =>
    IO.eprintln usage
    return 2
  | _, .error e => fail e.message

end Keypad.Main

open Keypad Keypad.Main

def main (arguments : List String) : IO UInt32 := do
  let level ← IO.getEnv Log.levelVariable.toUpper
  let setup := Log.Setup.ofEnvironment ((level.map (Log.levelVariable, ·)).toList)
  report setup.level setup.entries
  match CommandLine.Request.ofArguments arguments with
  | .help =>
    IO.println usage
    return 0
  | .usageError =>
    IO.eprintln usage
    return 2
  | .script path => replayFile setup.level (.ofText path)
