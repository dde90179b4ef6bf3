import FixedLayout.BytePattern
import FixedLayout.Code
import FixedLayout.CommandLine.Answer
import FixedLayout.CommandLine.Arguments
import FixedLayout.CommandLine.Disk
import FixedLayout.Config
import FixedLayout.Config.Document
import FixedLayout.Construction.Records
import FixedLayout.Construction.Scope
import FixedLayout.Construction.Session
import FixedLayout.Construction.Target
import FixedLayout.Datum
import FixedLayout.Descriptor
import FixedLayout.Enumeration
import FixedLayout.Error
import FixedLayout.Export
import FixedLayout.Ident
import FixedLayout.Json.Numeral
import FixedLayout.Json.Printer
import FixedLayout.Json.Reader
import FixedLayout.Layout.Gaps
import FixedLayout.Layout.Plan
import FixedLayout.Main
import FixedLayout.Metadata
import FixedLayout.Metadata.Document
import FixedLayout.ModuleTree
import FixedLayout.Primitive
import FixedLayout.Proofs.Construction.Calls
import FixedLayout.Proofs.Construction.Claims
import FixedLayout.Proofs.Construction.Declares
import FixedLayout.Proofs.Construction.Effects
import FixedLayout.Proofs.Construction.Origin
import FixedLayout.Proofs.Construction.Outcome
import FixedLayout.Proofs.Construction.Recorder
import FixedLayout.Proofs.Construction.Run
import FixedLayout.Proofs.Construction.Script
import FixedLayout.Proofs.Construction.Whole
import FixedLayout.Proofs.Export.Candidates
import FixedLayout.Proofs.Export.Session
import FixedLayout.Proofs.Export.Tiling
import FixedLayout.Proofs.Layout.Groups
import FixedLayout.Proofs.Layout.Overrun
import FixedLayout.Proofs.Layout.Placement
import FixedLayout.Proofs.Layout.Tiling
import FixedLayout.Proofs.Library
import FixedLayout.Proofs.Registry
import FixedLayout.Proofs.Taint.Closure
import FixedLayout.Proofs.Taint.Wrapping
import FixedLayout.Record
import FixedLayout.Registry
import FixedLayout.Scalar
import FixedLayout.Shape
import FixedLayout.Taint
import FixedLayout.Text.Affix
import FixedLayout.Text.Alphanumeric
import FixedLayout.Text.Blank
import FixedLayout.Text.Decimal
import FixedLayout.Text.Digits
import FixedLayout.Text.Quoted
import FixedLayout.Text.Quoted.Unprintable
import FixedLayout.Text.Ranges
import FixedLayout.Text.Uppercase
import FixedLayout.Toml.Numeral
import FixedLayout.Toml.Printer
import FixedLayout.Toml.Reader
import FixedLayout.Toml.Text
import FixedLayout.Toml.Tree
import FixedLayout.TypeExpr
import FixedLayout.TypeExpr.Reader
import FixedLayout.Wiring
import FixedLayout.Proofs.Construction.Steps
import FixedLayout.Proofs.Construction.Account
import FixedLayout.Proofs.Construction.Mentions
import FixedLayout.Proofs.Layout.Types
import FixedLayout.Proofs.Construction.Uses
import FixedLayout.Proofs.Export.References
import FixedLayout.Proofs.Association
import FixedLayout.Proofs.ModuleTree
import FixedLayout.Proofs.Construction.Placed
import FixedLayout.Proofs.Construction.Machine
import FixedLayout.Proofs.Export.Emission
import FixedLayout.Proofs.Construction.SameAnswers
import FixedLayout.Proofs.Construction.Coherent
import FixedLayout.Proofs.Construction.Success
import FixedLayout.Proofs.Construction.Reordered
import FixedLayout.Proofs.Export.Order
import FixedLayout.Proofs.Construction.Resolution
import FixedLayout.Proofs.Construction.Builtin
import FixedLayout.Proofs.Layout.Extent
import FixedLayout.Proofs.Export.Extent
import FixedLayout.Proofs.Export.Sizes
import FixedLayout.Proofs.Taint.Support
import FixedLayout.Proofs.Export.Unions
import FixedLayout.Proofs.Text.Digits
import FixedLayout.Proofs.TypeExpr.WellFormed
import FixedLayout.Proofs.TypeExpr.Parts
import FixedLayout.Proofs.TypeExpr.RoundTrip
import FixedLayout.Proofs.Construction.History
import FixedLayout.Proofs.Construction.Repeat
import FixedLayout.Proofs.Construction.Instances
import FixedLayout.Proofs.Construction.Paths
import FixedLayout.Proofs.Export.Copies
import FixedLayout.Proofs.Taint.Effect
import FixedLayout.Proofs.ModuleTree.Growth
import FixedLayout.Proofs.Construction.Growth
import FixedLayout.Proofs.Construction.Once
import FixedLayout.Proofs.Construction.Reports
import FixedLayout.Proofs.Export.Diagnostics
import FixedLayout.Proofs.Code
import FixedLayout.Proofs.Items
import FixedLayout.Proofs.Construction.Owners
import FixedLayout.Proofs.Export.Located
import FixedLayout.Proofs.Export.Wires
import FixedLayout.Proofs.Text.Words
import FixedLayout.Proofs.BytePattern.Grammar
import FixedLayout.Proofs.Construction.Provided
import FixedLayout.Proofs.Construction.Wrappers
import FixedLayout.Proofs.Construction.Populate
import FixedLayout.Proofs.BytePattern.NormalForm
import FixedLayout.Proofs.Enumeration
import FixedLayout.Proofs.Layout.Order
import FixedLayout.Proofs.Layout.Sums
import FixedLayout.Proofs.Construction.Faults
import FixedLayout.Proofs.Construction.Overflow
import FixedLayout.Proofs.Layout.Compiled
import FixedLayout.Proofs.Construction.Overloads
import FixedLayout.Proofs.Ident.TypeName
import FixedLayout.Proofs.ModuleTree.Edits
import FixedLayout.Proofs.ModuleTree.History
import FixedLayout.Proofs.Config
import FixedLayout.Proofs.Taint.Passes
import FixedLayout.Proofs.Datum
import FixedLayout.Proofs.Json.RoundTrip
import FixedLayout.Proofs.Metadata.Shape
import FixedLayout.Proofs.Layout.Gaps
import FixedLayout.Proofs.Layout.Overlay
import FixedLayout.Proofs.Ident.SnakeCase
import FixedLayout.Proofs.Text.Lines
import FixedLayout.Proofs.Code.Nesting
import FixedLayout.Proofs.Code.Declarations
import FixedLayout.Proofs.Library.Scan
