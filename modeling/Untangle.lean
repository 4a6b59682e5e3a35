import Untangle.CommandLine.Arguments
import Untangle.CommandLine.Deobfuscate
import Untangle.CommandLine.Detect
import Untangle.CommandLine.Failure
import Untangle.CommandLine.FileTree
import Untangle.CommandLine.Generate
import Untangle.CommandLine.Host
import Untangle.CommandLine.Options
import Untangle.CommandLine.Path
import Untangle.CommandLine.Run
import Untangle.CommandLine.Scan
import Untangle.CommandLine.Table
import Untangle.Detection
import Untangle.Engine.Run
import Untangle.Engine.Settings
import Untangle.Event.Log
import Untangle.Event.Statistics
import Untangle.Json.Fields
import Untangle.Json.Reader
import Untangle.Json.Value
import Untangle.Json.Writer
import Untangle.Main
import Untangle.Number.Binary64
import Untangle.Number.Decimal
import Untangle.Pass.Basic
import Untangle.Pass.Dictionary
import Untangle.Pass.Dispatcher
import Untangle.Pass.LoopExit
import Untangle.Pass.StringTable
import Untangle.Printer.Precedence
import Untangle.Printer.Quoted
import Untangle.Printer.Source
import Untangle.Syntax.Equality
import Untangle.Syntax.Kind
import Untangle.Syntax.Operator
import Untangle.Syntax.Program
import Untangle.Syntax.Reader
import Untangle.Syntax.Tree
import Untangle.Syntax.View
import Untangle.Syntax.Writer
import Untangle.Text.Base64
import Untangle.Text.Blank
import Untangle.Text.CodePoints
import Untangle.Text.ExtenderTable
import Untangle.Text.IdentifierName
import Untangle.Text.IdentifierTable
import Untangle.Text.Inspected
import Untangle.Text.InvisibleTable
import Untangle.Text.Numeral
import Untangle.Text.Spelled
import Untangle.Text.Split
import Untangle.Text.Width
import Untangle.Walk.Scope
import Untangle.Walk.Visitor
import Untangle.Proofs.Text.Numeral
import Untangle.Proofs.Grammar.StringLiteral
import Untangle.Proofs.Grammar.Token
import Untangle.Proofs.Grammar.Expression
import Untangle.Proofs.Printer.Lexemes
import Untangle.Proofs.Printer.ReadBack
import Untangle.Proofs.Json.RoundTrip
import Untangle.Proofs.Syntax.Reread
import Untangle.Proofs.Syntax.Equality
import Untangle.Proofs.Syntax.Knot
import Untangle.Proofs.Syntax.RoundTrip
import Untangle.Proofs.Pass.Flattening
import Untangle.Proofs.Syntax.Outline
import Untangle.Proofs.Walk.State
import Untangle.Proofs.Pass.Progress
import Untangle.Proofs.Pass.Changes
import Untangle.Proofs.Pass.Dictionary
import Untangle.Proofs.Syntax.Diagram
import Untangle.Proofs.Walk.Relation
import Untangle.Proofs.Walk.Calls
import Untangle.Proofs.Walk.Nesting
import Untangle.Proofs.Syntax.Rank
import Untangle.Proofs.Pass.Descent
import Untangle.Proofs.Engine.Verdict
import Untangle.Proofs.Pass.Jumps
import Untangle.Proofs.Pass.Targets
import Untangle.Proofs.Pass.Dangling
import Untangle.Proofs.Syntax.Depth
import Untangle.Proofs.Pass.FixedPoint
import Untangle.Proofs.Engine.Rounds
import Untangle.Proofs.Pass.Prologue
import Untangle.Proofs.Engine.Prologue
import Untangle.Proofs.Detection.Bounds
import Untangle.Proofs.Detection.Labels
import Untangle.Proofs.CommandLine.FileTree
import Untangle.Proofs.CommandLine.Scan
import Untangle.Proofs.CommandLine.Outputs
import Untangle.Proofs.CommandLine.Rescan
import Untangle.Proofs.Pass.Scopes
import Untangle.Proofs.Walk.Slots
import Untangle.Proofs.Pass.Template
import Untangle.Proofs.Pass.Shadowing
import Untangle.Proofs.Semantics.Behavior
import Untangle.Proofs.Semantics.Execution
import Untangle.Proofs.Semantics.Jumps
import Untangle.Proofs.Pass.LoopExits
import Untangle.Proofs.Pass.StringShadowing
import Untangle.Proofs.Syntax.Fragment
import Untangle.Proofs.Pass.Constants
import Untangle.Proofs.Pass.Accounts
import Untangle.Proofs.Walk.Congruence
import Untangle.Proofs.Pass.LoopFrame
import Untangle.Proofs.Pass.StringFolding
import Untangle.Proofs.Pass.StringFrame
import Untangle.Proofs.Pass.TableOrder
import Untangle.Proofs.Text.Base64
import Untangle.Proofs.Printer.Refusal
import Untangle.Proofs.Printer.Openings
import Untangle.Proofs.Printer.Quoting
import Untangle.Proofs.Printer.LoopHeads
import Untangle.Proofs.Semantics.Truth
import Untangle.Proofs.Syntax.Shape
import Untangle.Proofs.Syntax.Root
import Untangle.Proofs.Number.Rounding
import Untangle.Proofs.Json.Numbers
import Untangle.Proofs.Grammar.Numeral
import Untangle.Proofs.Text.Index
import Untangle.Proofs.Detection.Completeness
