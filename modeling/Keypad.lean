import Keypad.Binary64.Arithmetic
import Keypad.Binary64.Basic
import Keypad.Binary64.Bits
import Keypad.Binary64.Decimal
import Keypad.Binary64.Shortest
import Keypad.Binary64.Significant
import Keypad.CommandLine
import Keypad.Decimal.Basic
import Keypad.Decimal.Numeral
import Keypad.Evaluation
import Keypad.Expression
import Keypad.Fault
import Keypad.Files.Archive
import Keypad.Files.Extraction
import Keypad.Files.Script
import Keypad.Files.Tree
import Keypad.Input.Datum
import Keypad.Input.Issue
import Keypad.Input.Record
import Keypad.Input.Scalar
import Keypad.Key
import Keypad.Log
import Keypad.Log.Setup
import Keypad.Main
import Keypad.Operator
import Keypad.Outcome
import Keypad.Path
import Keypad.Proofs.Binary64.Divisor
import Keypad.Proofs.Binary64.Rounding
import Keypad.Proofs.Chain
import Keypad.Proofs.Evaluation.Acceptance
import Keypad.Proofs.Evaluation.Grammar
import Keypad.Proofs.Evaluation.LeftmostFault
import Keypad.Proofs.Evaluation.Stacks
import Keypad.Proofs.Session.Entry
import Keypad.Proofs.Session.Shape
import Keypad.Rounding
import Keypad.Session
import Keypad.Settings
import Keypad.Text.Blank
import Keypad.Text.Digit
import Keypad.Text.Line
import Keypad.Text.Printable
import Keypad.Text.Quoted
import Keypad.Text.Utf8
import Keypad.Token
import Keypad.Transcript
import Keypad.Proofs.Session.Failure
import Keypad.Proofs.Decimal.Value
import Keypad.Proofs.NearestEven
import Keypad.Proofs.Binary64.Nearest
import Keypad.Proofs.Decimal.Rounding
import Keypad.Proofs.Decimal.Reading
import Keypad.Proofs.Binary64.Display
import Keypad.Proofs.Session.EqualsAgain
import Keypad.Proofs.Evaluation.Checked
import Keypad.Proofs.Text.Words
import Keypad.Proofs.Transcript.Replay
import Keypad.Proofs.Transcript.Checked
import Keypad.Proofs.Transcript.Layout
import Keypad.Proofs.Files.Tree
import Keypad.Proofs.Files.Unpacking
import Keypad.Proofs.Files.FirstScript
import Keypad.Proofs.Path.Suffixes
import Keypad.Proofs.Files.Containers
import Keypad.Proofs.Session.Forgetting
import Keypad.Proofs.Session.Handlers
import Keypad.Proofs.CommandLine.AllOrNothing
import Keypad.Proofs.Session.Record
import Keypad.Proofs.Text.Utf8
import Keypad.Proofs.Transcript.Decoding
import Keypad.Proofs.Evaluation.Tolerance
import Keypad.Proofs.Session.Objects
import Keypad.Proofs.Session.Separation
import Keypad.Proofs.Binary64.Whole
import Keypad.Proofs.Session.Carried
import Keypad.Proofs.Evaluation.Division
import Keypad.Proofs.Binary64.Seventeen
import Keypad.Proofs.Binary64.Rounded
import Keypad.Proofs.Path.Coinciding
import Keypad.Proofs.Transcript.LineNumbers
import Keypad.Proofs.Evaluation.Discipline
import Keypad.Proofs.Transcript.Log
import Keypad.Proofs.Decimal.Points
import Keypad.Proofs.Session.Typing
