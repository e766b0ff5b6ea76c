import SheetLint.Main
import SheetLint.Proofs.Batch
import SheetLint.Proofs.Brace.Classification
import SheetLint.Proofs.Brace.CommonGround
import SheetLint.Proofs.Brace.Concatenation
import SheetLint.Proofs.Brace.LineComment
import SheetLint.Proofs.Brace.NestingLimit
import SheetLint.Proofs.Brace.Placement
import SheetLint.Proofs.Brace.Rendering
import SheetLint.Proofs.Brace.ReturnedSheet
import SheetLint.Proofs.Brace.Returns
import SheetLint.Proofs.Brace.ValueComment
import SheetLint.Proofs.Indented.Accounting
import SheetLint.Proofs.Indented.Alignment
import SheetLint.Proofs.Indented.Values
import SheetLint.Proofs.Isolation
import SheetLint.Proofs.LineEnding
import SheetLint.Proofs.Order
import SheetLint.Proofs.Text.Return
import SheetLint.Proofs.Value.Words
import SheetLint.Proofs.FirstProblem
import SheetLint.Proofs.Brace.Blame
import SheetLint.Proofs.ExitCode
import SheetLint.Proofs.Value.Meaning
import SheetLint.Proofs.DuplicateProperty
import SheetLint.Proofs.Number.Underflow
import SheetLint.Proofs.Value.MalformedColor
import SheetLint.Proofs.Value.ZeroLength
import SheetLint.Proofs.Brace.EmptyBlock
import SheetLint.Proofs.Brace.InterpolatedProperty
import SheetLint.Proofs.Indented.NestingLimit
import SheetLint.Proofs.Indented.Normalised
import SheetLint.Proofs.Planning
import SheetLint.Proofs.Expansion
import SheetLint.Proofs.Json.RoundTrip
import SheetLint.Proofs.Report.Json
import SheetLint.Proofs.Report.Listing
import SheetLint.Proofs.Config.Settings
import SheetLint.Proofs.Registry
import SheetLint.Proofs.Config.Discovery
import SheetLint.Proofs.Path.Display
import SheetLint.Proofs.Brace.Progress
import SheetLint.Proofs.Traversal
import SheetLint.Proofs.Brace.Descent
import SheetLint.Proofs.Indented.Descent
import SheetLint.Proofs.Progress
import SheetLint.Proofs.Brace.Slices
import SheetLint.Proofs.Indented.Slices
import SheetLint.Proofs.Value.Slices
import SheetLint.Proofs.InRange
