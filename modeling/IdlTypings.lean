import IdlTypings.Binder.ModuleScope
import IdlTypings.Command.Arguments
import IdlTypings.Command.FileTree
import IdlTypings.Command.Run
import IdlTypings.Conversion.Block
import IdlTypings.Conversion.BuiltinName
import IdlTypings.Conversion.Item
import IdlTypings.Conversion.Params
import IdlTypings.Conversion.TypeExpr
import IdlTypings.Decimal.Layout
import IdlTypings.Decimal.Shortest
import IdlTypings.Diagnostic
import IdlTypings.Idl.Decoding
import IdlTypings.Idl.Definition
import IdlTypings.Idl.Descriptor
import IdlTypings.Idl.ExtAttrs
import IdlTypings.Idl.Load
import IdlTypings.Idl.LoadError
import IdlTypings.Idl.TypeExpr
import IdlTypings.Json.Escape
import IdlTypings.Json.Numeral
import IdlTypings.Json.Pretty
import IdlTypings.Json.Reader
import IdlTypings.Json.SyntaxError
import IdlTypings.Json.Value
import IdlTypings.Main
import IdlTypings.Proofs.Command.Atomicity
import IdlTypings.Proofs.Command.Delivery
import IdlTypings.Proofs.Command.Inputs
import IdlTypings.Proofs.Command.Splitting
import IdlTypings.Proofs.Command.Writing
import IdlTypings.Proofs.Conversion.Congruence
import IdlTypings.Proofs.Conversion.Constructors
import IdlTypings.Proofs.Conversion.Contribution
import IdlTypings.Proofs.Conversion.Dumps
import IdlTypings.Proofs.Conversion.Exposure
import IdlTypings.Proofs.Conversion.Independence
import IdlTypings.Proofs.Conversion.Iteration
import IdlTypings.Proofs.Conversion.LockStep
import IdlTypings.Proofs.Conversion.Merging
import IdlTypings.Proofs.Conversion.Nullability
import IdlTypings.Proofs.Conversion.Parameters
import IdlTypings.Proofs.Conversion.Provenance
import IdlTypings.Proofs.Conversion.Recursion
import IdlTypings.Proofs.Conversion.Shape
import IdlTypings.Proofs.Conversion.Siblings
import IdlTypings.Proofs.Conversion.Skipped
import IdlTypings.Proofs.Conversion.ValueNames
import IdlTypings.Proofs.Idl.Acceptance
import IdlTypings.Proofs.Idl.Canonical
import IdlTypings.Proofs.Idl.Decoding
import IdlTypings.Proofs.Idl.Equality
import IdlTypings.Proofs.Idl.FirstError
import IdlTypings.Proofs.Idl.NodeReading
import IdlTypings.Proofs.Idl.NormalForm
import IdlTypings.Proofs.Idl.RoundTrip
import IdlTypings.Proofs.Idl.Schema
import IdlTypings.Proofs.Idl.TypeDepth
import IdlTypings.Proofs.Json.Depth
import IdlTypings.Proofs.Json.DumpLines
import IdlTypings.Proofs.Json.Equality
import IdlTypings.Proofs.Json.Exact
import IdlTypings.Proofs.Json.Integers
import IdlTypings.Proofs.Json.Quote
import IdlTypings.Proofs.Json.ReadBack
import IdlTypings.Proofs.Report.Census
import IdlTypings.Proofs.Report.Fences
import IdlTypings.Proofs.Report.Lines
import IdlTypings.Proofs.Report.Listing
import IdlTypings.Proofs.Text.Lines
import IdlTypings.Proofs.Ts.DeclarationLines
import IdlTypings.Proofs.Ts.Layout
import IdlTypings.Proofs.Ts.Nesting
import IdlTypings.Proofs.Ts.NormalForm
import IdlTypings.Proofs.Ts.OneLine
import IdlTypings.Proofs.Ts.Rendering
import IdlTypings.Proofs.Ts.TypeDepth
import IdlTypings.Proofs.Ts.TypeReader
import IdlTypings.Proofs.Ts.Unambiguous
import IdlTypings.Report
import IdlTypings.Settings.Config
import IdlTypings.Settings.Settings
import IdlTypings.Text.Lines
import IdlTypings.Text.Printable
import IdlTypings.Text.Quoted
import IdlTypings.Toml.Document
import IdlTypings.Toml.Item
import IdlTypings.Toml.Numeral
import IdlTypings.Toml.Reader
import IdlTypings.Toml.Text
import IdlTypings.Toml.Value
import IdlTypings.Ts.Declaration
import IdlTypings.Ts.Line
import IdlTypings.Ts.Printer
import IdlTypings.Ts.TypeExpr
import IdlTypings.Ts.TypeText
import IdlTypings.Warnings
