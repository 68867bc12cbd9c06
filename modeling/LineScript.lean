import LineScript.Text.Blank
import LineScript.Text.Word
import LineScript.Text.Excerpt
import LineScript.Text.Split
import LineScript.Text.Ranges
import LineScript.Text.Visible
import LineScript.Text.Quoted
import LineScript.Text.Terminal
import LineScript.Text.Alphanumeric
import LineScript.Number.Binary64
import LineScript.Number.Nearest
import LineScript.Number.Literal
import LineScript.Number.Decimal
import LineScript.Number.Remainder
import LineScript.Error
import LineScript.Value
import LineScript.Scan.Nesting
import LineScript.Scan.Cut
import LineScript.Scan.Group
import LineScript.Calculation
import LineScript.Table
import LineScript.Scope
import LineScript.Resolve.Search
import LineScript.Resolve.Notes
import LineScript.Resolve
import LineScript.Script.Line
import LineScript.Script.Statement
import LineScript.Script.Parse
import LineScript.Action
import LineScript.Report
import LineScript.Event
import LineScript.Dispatch
import LineScript.Dispatch.Queue
import LineScript.Dispatch.CommandTable
import LineScript.Run
import LineScript.Session
import LineScript.Properties
import LineScript.CommandLine.Arguments
import LineScript.CommandLine.Path
import LineScript.CommandLine.World
import LineScript.CommandLine.FileTree
import LineScript.Pattern.Depth
import LineScript.Pattern.Mode
import LineScript.Pattern.Symbol
import LineScript.Pattern.Set
import LineScript.Pattern
import LineScript.CommandLine.Log
import LineScript.CommandLine.Log.Filter
import LineScript.CommandLine.Ticks
import LineScript.CommandLine
import LineScript.Main
import LineScript.Proofs.Text.Trimming
import LineScript.Proofs.Text.Splitting
import LineScript.Proofs.Scan.Cuts
import LineScript.Proofs.Scan.Sealed
import LineScript.Proofs.Scan.Delimiters
import LineScript.Proofs.Scan.Balance
import LineScript.Proofs.Scan.Order
import LineScript.Proofs.Scan.Positions
import LineScript.Proofs.Scan.Pieces
import LineScript.Proofs.Scan.Joining
import LineScript.Proofs.Number.Negation
import LineScript.Proofs.Number.Spelling
import LineScript.Proofs.Number.Rounding
import LineScript.Proofs.Number.Nearness
import LineScript.Proofs.Number.Written
import LineScript.Proofs.Resolve.Simulation
import LineScript.Proofs.Resolve.Termination
import LineScript.Proofs.Resolve.Remembering
import LineScript.Proofs.Resolve.Values
import LineScript.Proofs.Resolve.Endings
import LineScript.Proofs.Number.RoundTrip
import LineScript.Proofs.Number.Doubles
import LineScript.Proofs.Number.Numerals
import LineScript.Proofs.Resolve.Direct
import LineScript.Proofs.Expression.Form
import LineScript.Proofs.Expression.Chain
import LineScript.Proofs.Expression.Grouping
import LineScript.Proofs.Expression.Rows
import LineScript.Proofs.Expression.Search
import LineScript.Proofs.Expression.Resolution
import LineScript.Proofs.Expression.Acceptance
import LineScript.Proofs.Failure.Words
import LineScript.Proofs.Failure.Noting
import LineScript.Proofs.Failure.Justification
import LineScript.Proofs.Failure.FirstUndefined
import LineScript.Proofs.Expression.Groups
import LineScript.Proofs.Calculation.Location
import LineScript.Proofs.Calculation.Separation
import LineScript.Proofs.Run.Steps
import LineScript.Proofs.Run.Structured
import LineScript.Proofs.Run.Trace
import LineScript.Proofs.Script.Blocks
import LineScript.Proofs.Script.Nesting
import LineScript.Proofs.Script.Lines
import LineScript.Proofs.Script.PhysicalLines
import LineScript.Proofs.Script.Preorder
import LineScript.Proofs.Script.Forms
import LineScript.Proofs.Script.Assignments
import LineScript.Proofs.Script.Accounting
import LineScript.Proofs.Script.Printing
import LineScript.Proofs.Run.Order
import LineScript.Proofs.Session.Stepping
import LineScript.Proofs.CommandLine.Ticking
import LineScript.Proofs.CommandLine.Clusters
import LineScript.Proofs.Run.Lockstep
import LineScript.Proofs.Run.Locality
import LineScript.Proofs.Run.Account
import LineScript.Proofs.Run.Draining
import LineScript.Proofs.Session.Operations
import LineScript.Proofs.Scope.Alike
import LineScript.Proofs.Session.Isolation
import LineScript.Proofs.Action.Reading
import LineScript.Proofs.Run.Failing
import LineScript.Proofs.Session.Running
import LineScript.Proofs.Properties.Records
import LineScript.Proofs.Properties.Normalisation
