import FormulaEdit.Atom.Basic
import FormulaEdit.Atom.Decode
import FormulaEdit.Atom.Literal
import FormulaEdit.Atom.Timestamp
import FormulaEdit.Command.Arguments
import FormulaEdit.Command.Basic
import FormulaEdit.Command.Edit
import FormulaEdit.Command.Host
import FormulaEdit.Command.Scenario
import FormulaEdit.Command.Store
import FormulaEdit.Config.Basic
import FormulaEdit.Edit.Apply
import FormulaEdit.Edit.Basic
import FormulaEdit.Edit.Decode
import FormulaEdit.Editor.Basic
import FormulaEdit.Editor.History
import FormulaEdit.Editor.Line
import FormulaEdit.Editor.Session
import FormulaEdit.Editor.Timeline
import FormulaEdit.Editor.View
import FormulaEdit.Formula.Basic
import FormulaEdit.Formula.Build
import FormulaEdit.Formula.Decode
import FormulaEdit.Formula.Node
import FormulaEdit.Formula.Render
import FormulaEdit.Formula.Shape
import FormulaEdit.Grammar.Basic
import FormulaEdit.Grammar.Depth
import FormulaEdit.Grammar.Error
import FormulaEdit.Grammar.Load
import FormulaEdit.Grammar.Operator
import FormulaEdit.Grammar.Resolve
import FormulaEdit.Highlight.Basic
import FormulaEdit.Highlight.Request
import FormulaEdit.Highlight.Server
import FormulaEdit.Html.Builder
import FormulaEdit.Html.Dom
import FormulaEdit.Html.Node
import FormulaEdit.Html.Parser
import FormulaEdit.Html.Reference
import FormulaEdit.Html.ReferenceTable
import FormulaEdit.Html.Rules
import FormulaEdit.Html.Token
import FormulaEdit.Json.Basic
import FormulaEdit.Json.Mismatch
import FormulaEdit.Json.Printer
import FormulaEdit.Json.Reader
import FormulaEdit.Json.Record
import FormulaEdit.Json.Scan
import FormulaEdit.Kind.Basic
import FormulaEdit.Kind.Expr
import FormulaEdit.Main
import FormulaEdit.Markup.Basic
import FormulaEdit.Number.Binary64
import FormulaEdit.Number.Bounded
import FormulaEdit.Number.Decimal
import FormulaEdit.Proofs.Build
import FormulaEdit.Proofs.Chronicle
import FormulaEdit.Proofs.Cursor
import FormulaEdit.Proofs.Debounce
import FormulaEdit.Proofs.Depth
import FormulaEdit.Proofs.Edit
import FormulaEdit.Proofs.Editor
import FormulaEdit.Proofs.Entry
import FormulaEdit.Proofs.Interference
import FormulaEdit.Proofs.Load
import FormulaEdit.Proofs.Reach
import FormulaEdit.Proofs.Resolve
import FormulaEdit.Proofs.Selector
import FormulaEdit.Proofs.Settle
import FormulaEdit.Proofs.Shape
import FormulaEdit.Proofs.Spot
import FormulaEdit.Proofs.Typed
import FormulaEdit.Terminal.Show
import FormulaEdit.Terminal.Style
import FormulaEdit.Text.Blank
import FormulaEdit.Text.Hidden
import FormulaEdit.Text.Lines
import FormulaEdit.Text.Quoted
import FormulaEdit.Tree.Basic
import FormulaEdit.Tree.Cursor
import FormulaEdit.Tree.Path
import FormulaEdit.Proofs.Exchange
import FormulaEdit.Proofs.Failure
import FormulaEdit.Proofs.Offer
import FormulaEdit.Proofs.Coherence
import FormulaEdit.Proofs.Report
import FormulaEdit.Proofs.Reload
import FormulaEdit.Proofs.AtomText
import FormulaEdit.Proofs.Readable
import FormulaEdit.Proofs.Change
import FormulaEdit.Proofs.Plan
import FormulaEdit.Proofs.Independence
import FormulaEdit.Proofs.Outcome
import FormulaEdit.Proofs.Derivation
import FormulaEdit.Proofs.Levels
import FormulaEdit.Proofs.Defect
import FormulaEdit.Proofs.Layout
import FormulaEdit.Proofs.Projection
import FormulaEdit.Proofs.Outline
import FormulaEdit.Proofs.Choice
import FormulaEdit.Proofs.Markup
import FormulaEdit.Proofs.Blame
import FormulaEdit.Proofs.Path
import FormulaEdit.Proofs.Line
import FormulaEdit.Proofs.Literal
