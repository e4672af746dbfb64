import WrenAnalysis.Command.Arguments
import WrenAnalysis.Command.CoreLibrary
import WrenAnalysis.Command.Interactive
import WrenAnalysis.Command.Lookup
import WrenAnalysis.Command.Output
import WrenAnalysis.Command.Render
import WrenAnalysis.Command.Run
import WrenAnalysis.Disk
import WrenAnalysis.ImportPath
import WrenAnalysis.Index.Basic
import WrenAnalysis.Index.Binding
import WrenAnalysis.LineContext
import WrenAnalysis.Main
import WrenAnalysis.Path
import WrenAnalysis.Proofs.Registry
import WrenAnalysis.Proofs.Resolution.Course
import WrenAnalysis.Proofs.Resolution.Ownership
import WrenAnalysis.Registry
import WrenAnalysis.Resolution.Library
import WrenAnalysis.Resolution.Task
import WrenAnalysis.Resolution.Warning
import WrenAnalysis.Settings.Basic
import WrenAnalysis.Settings.Toml
import WrenAnalysis.Syntax.Cursor
import WrenAnalysis.Syntax.Error
import WrenAnalysis.Syntax.Grammar.Block
import WrenAnalysis.Syntax.Grammar.Expression
import WrenAnalysis.Syntax.Grammar.Nested
import WrenAnalysis.Syntax.Grammar.Statement
import WrenAnalysis.Syntax.Module
import WrenAnalysis.Syntax.Outline
import WrenAnalysis.Syntax.SExpr
import WrenAnalysis.Syntax.Tree
import WrenAnalysis.Text.Alphabetic
import WrenAnalysis.Text.Backspace
import WrenAnalysis.Text.Blank
import WrenAnalysis.Text.Cluster
import WrenAnalysis.Text.ClusterClass
import WrenAnalysis.Text.CodeRange
import WrenAnalysis.Text.Json
import WrenAnalysis.Text.Numeric
import WrenAnalysis.Text.Position
import WrenAnalysis.Text.Quoted
import WrenAnalysis.Text.Uppercase
import WrenAnalysis.Text.Word
import WrenAnalysis.Token.Basic
import WrenAnalysis.Token.Extent
import WrenAnalysis.Token.Fault
import WrenAnalysis.Token.Kind
import WrenAnalysis.Token.Lexeme
import WrenAnalysis.Token.Lexer
import WrenAnalysis.Token.Name
import WrenAnalysis.Workspace
import WrenAnalysis.Proofs.Workspace.Run
import WrenAnalysis.Proofs.Resolution.Provenance
import WrenAnalysis.Proofs.Workspace.Ownership
import WrenAnalysis.Proofs.Workspace.Provenance
import WrenAnalysis.Proofs.Workspace.Publication
import WrenAnalysis.Proofs.Path
import WrenAnalysis.Proofs.Resolution.Import
import WrenAnalysis.Proofs.Resolution.Call
import WrenAnalysis.Proofs.Resolution.Log
import WrenAnalysis.Proofs.Resolution.Bound
import WrenAnalysis.Proofs.Resolution.Account
import WrenAnalysis.Proofs.Resolution.Closure
import WrenAnalysis.Proofs.Resolution.Reread
import WrenAnalysis.Proofs.Workspace.Cancellation
import WrenAnalysis.Proofs.Token.Stream
import WrenAnalysis.Proofs.Token.Trivia
import WrenAnalysis.Proofs.Token.Tiling
import WrenAnalysis.Proofs.Token.Scan
import WrenAnalysis.Proofs.Token.Spacing
import WrenAnalysis.Proofs.Token.Joining
import WrenAnalysis.Proofs.Syntax.Pairing
import WrenAnalysis.Proofs.Syntax.Relabel
import WrenAnalysis.Proofs.Syntax.Mirrored
import WrenAnalysis.Proofs.Syntax.Joining
import WrenAnalysis.Proofs.Syntax.Derivation
import WrenAnalysis.Proofs.Syntax.Soundness
import WrenAnalysis.Proofs.Token.Wording
import WrenAnalysis.Proofs.Syntax.Rendering
import WrenAnalysis.Proofs.Syntax.Lossless
import WrenAnalysis.Proofs.Registry.Machine
import WrenAnalysis.Proofs.Index.Places
import WrenAnalysis.Proofs.Index.Listing
import WrenAnalysis.Proofs.Workspace.Identity
import WrenAnalysis.Proofs.Token.Cutting
import WrenAnalysis.Proofs.LineContext.Cursor
import WrenAnalysis.Proofs.Syntax.Bracketing
import WrenAnalysis.Proofs.Syntax.Fitting
import WrenAnalysis.Proofs.Syntax.Grouping
import WrenAnalysis.Proofs.Syntax.Height
import WrenAnalysis.Proofs.Syntax.Commas
import WrenAnalysis.Proofs.Token.Exchange
import WrenAnalysis.Proofs.Syntax.Parts
import WrenAnalysis.Proofs.LineContext.Argument
import WrenAnalysis.Proofs.Syntax.Retained
import WrenAnalysis.Proofs.Syntax.WellFormed
import WrenAnalysis.Proofs.Syntax.Layout
import WrenAnalysis.Proofs.Syntax.Depth
import WrenAnalysis.Proofs.Index.Binders
import WrenAnalysis.Proofs.LineContext.Parentheses
import WrenAnalysis.Proofs.Token.Place
import WrenAnalysis.Proofs.Token.Quotation
import WrenAnalysis.Proofs.Token.Growth
import WrenAnalysis.Proofs.Index.Labels
import WrenAnalysis.Proofs.Path.NormalForm
import WrenAnalysis.Proofs.Resolution.Origin
import WrenAnalysis.Proofs.Settings.Layers
import WrenAnalysis.Proofs.Resolution.Termination
import WrenAnalysis.Proofs.Syntax.Progress
import WrenAnalysis.Proofs.Syntax.Steady
