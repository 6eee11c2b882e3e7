import Stencil.Text.Basic
import Stencil.Text.Blank
import Stencil.Text.Digits
import Stencil.Text.Quoted
import Stencil.Text.Utf8
import Stencil.Template.Fault
import Stencil.Template.Token
import Stencil.Template.Basic
import Stencil.Template.Conflict
import Stencil.Pattern.Written
import Stencil.Pattern.Limit
import Stencil.Pattern.Cut
import Stencil.Pattern.Fit
import Stencil.Value.Table
import Stencil.Reader
import Stencil.Batch
import Stencil.Json.Printer
import Stencil.Report
import Stencil.Source
import Stencil.Folder
import Stencil.CommandLine.Run
import Stencil.Main
import Stencil.Proofs.Expression.Basic
import Stencil.Proofs.Expression.Reading
import Stencil.Proofs.Expression.Ways
import Stencil.Proofs.Expression.Outline
import Stencil.Proofs.Pattern.Fit
import Stencil.Proofs.Steps
import Stencil.Proofs.Text.Trim
import Stencil.Proofs.Template.Pair
import Stencil.Proofs.Template.Scanning
import Stencil.Proofs.Template.Tokens
import Stencil.Proofs.Template.Faults
import Stencil.Proofs.Template.Paths
import Stencil.Proofs.Template.Wording
import Stencil.Proofs.Template.Specifiers
import Stencil.Proofs.Template.Division
import Stencil.Proofs.Template.Rewriting
import Stencil.Proofs.Template.Failures
import Stencil.Proofs.Value.Lookup
import Stencil.Proofs.Value.Placement
import Stencil.Proofs.Value.Frame
import Stencil.Proofs.Value.Records
import Stencil.Proofs.Reader.Checks
import Stencil.Proofs.Reader.Matching
import Stencil.Proofs.Reader.Contents
import Stencil.Proofs.Reader.RoundTrip
import Stencil.Proofs.Reader.Rewriting
import Stencil.Proofs.Reader.Outline
import Stencil.Proofs.Template.Dotted
import Stencil.Proofs.Template.Pieces
import Stencil.Proofs.Reader.Addressing
import Stencil.Proofs.Reader.Recovery
import Stencil.Proofs.Value.Blanking
import Stencil.Proofs.Json.Shape
import Stencil.Proofs.Json.Nodes
import Stencil.Proofs.Reader.Documents
import Stencil.Proofs.Reader.Stages
import Stencil.Proofs.Reader.Conflicts
import Stencil.Proofs.Number.Spelling
import Stencil.Proofs.Value.Casting
import Stencil.Proofs.Json.Faithful
import Stencil.Proofs.Json.Printing
import Stencil.Proofs.Report.Lines
import Stencil.Proofs.Reader.Batches
import Stencil.Proofs.Report.Shown
import Stencil.Proofs.CommandLine.Run
import Stencil.Proofs.Reader.Runs
import Stencil.Proofs.Source.Lines
import Stencil.Proofs.Source.Inputs
import Stencil.Proofs.Number.Overflow
import Stencil.Proofs.Text.Digits
import Stencil.Proofs.Value.Kinds
import Stencil.Proofs.Reader.Typing
