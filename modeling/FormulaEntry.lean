import FormulaEntry.App.Actions
import FormulaEntry.App.Basic
import FormulaEntry.Box.Basic
import FormulaEntry.Box.Binding
import FormulaEntry.Channel
import FormulaEntry.Content
import FormulaEntry.Control
import FormulaEntry.Datum
import FormulaEntry.Derivation
import FormulaEntry.Display
import FormulaEntry.Fault
import FormulaEntry.Formula.Error
import FormulaEntry.Formula.Evaluate
import FormulaEntry.Formula.Operator
import FormulaEntry.Formula.Scan
import FormulaEntry.Formula.Shape
import FormulaEntry.Host
import FormulaEntry.Log
import FormulaEntry.Main
import FormulaEntry.Number
import FormulaEntry.Number.Double
import FormulaEntry.Number.Numeral
import FormulaEntry.Number.Rounding
import FormulaEntry.Number.Shortest
import FormulaEntry.Number.Text
import FormulaEntry.Part
import FormulaEntry.Proofs.App.Basic
import FormulaEntry.Proofs.App.Carried
import FormulaEntry.Proofs.App.Gesture
import FormulaEntry.Proofs.App.Lifetime
import FormulaEntry.Proofs.App.Readouts
import FormulaEntry.Proofs.App.Rows
import FormulaEntry.Proofs.App.Shown
import FormulaEntry.Proofs.App.Slot
import FormulaEntry.Proofs.Box.Basic
import FormulaEntry.Proofs.Box.Binding
import FormulaEntry.Proofs.Box.Lasting
import FormulaEntry.Proofs.Box.Readout
import FormulaEntry.Proofs.Box.Run
import FormulaEntry.Proofs.Channel.Basic
import FormulaEntry.Proofs.Channel.Dispatch
import FormulaEntry.Proofs.Content
import FormulaEntry.Proofs.Control.Announcement
import FormulaEntry.Proofs.Control.Basic
import FormulaEntry.Proofs.Control.Destruction
import FormulaEntry.Proofs.Control.Failure
import FormulaEntry.Proofs.Control.IntegerRetyping
import FormulaEntry.Proofs.Control.Lasting
import FormulaEntry.Proofs.Control.Latest
import FormulaEntry.Proofs.Control.Mirror
import FormulaEntry.Proofs.Control.Retyping
import FormulaEntry.Proofs.Control.Run
import FormulaEntry.Proofs.Control.Running
import FormulaEntry.Proofs.Control.Session
import FormulaEntry.Proofs.Control.Telling
import FormulaEntry.Proofs.Control.Trace
import FormulaEntry.Proofs.Control.Typing
import FormulaEntry.Proofs.Formula.Brackets
import FormulaEntry.Proofs.Formula.Chain
import FormulaEntry.Proofs.Formula.Depth
import FormulaEntry.Proofs.Formula.Failure
import FormulaEntry.Proofs.Formula.Grammar
import FormulaEntry.Proofs.Formula.Limit
import FormulaEntry.Proofs.Formula.Meaning
import FormulaEntry.Proofs.Formula.Operators
import FormulaEntry.Proofs.Formula.Outline
import FormulaEntry.Proofs.Formula.Place
import FormulaEntry.Proofs.Formula.PlainNumber
import FormulaEntry.Proofs.Formula.Reading
import FormulaEntry.Proofs.Formula.Segments
import FormulaEntry.Proofs.Formula.Split
import FormulaEntry.Proofs.Formula.Splitting
import FormulaEntry.Proofs.Formula.Survey
import FormulaEntry.Proofs.Number.Integer
import FormulaEntry.Proofs.Number.Nearest
import FormulaEntry.Proofs.Number.Numeral
import FormulaEntry.Proofs.Number.Rational
import FormulaEntry.Proofs.Number.RoundTrip
import FormulaEntry.Proofs.Number.Rounding
import FormulaEntry.Proofs.Number.Shortest
import FormulaEntry.Proofs.Number.Text
import FormulaEntry.Proofs.Run
import FormulaEntry.Proofs.Script
import FormulaEntry.Proofs.Text.Blank
import FormulaEntry.Session
import FormulaEntry.Settings
import FormulaEntry.Text.Blank
import FormulaEntry.Text.Digit
import FormulaEntry.Text.Printable
import FormulaEntry.Text.Quoted
import FormulaEntry.World
