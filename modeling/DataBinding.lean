import DataBinding.Binding.Kind
import DataBinding.Binding.Occurrence
import DataBinding.Command.Arguments
import DataBinding.Command.Run
import DataBinding.Component.Declaration
import DataBinding.Component.Injection
import DataBinding.Expression.Basic
import DataBinding.Expression.Diagnosis
import DataBinding.Expression.Fault
import DataBinding.Expression.Operator
import DataBinding.Expression.Parser
import DataBinding.Expression.Path
import DataBinding.Expression.Reference
import DataBinding.Expression.Token
import DataBinding.Files.Location
import DataBinding.Files.Process
import DataBinding.Files.Source
import DataBinding.Files.Tree
import DataBinding.Lexeme.Number
import DataBinding.Lexeme.Quotation
import DataBinding.Lexeme.Spacing
import DataBinding.Lexeme.Word
import DataBinding.Main
import DataBinding.Markup.Address
import DataBinding.Markup.Attribute
import DataBinding.Markup.Event
import DataBinding.Markup.Node
import DataBinding.Markup.Reference
import DataBinding.Markup.ReferenceTable
import DataBinding.Markup.Scan
import DataBinding.Markup.Splice
import DataBinding.Markup.StartTag
import DataBinding.Markup.Tree
import DataBinding.Markup.Write
import DataBinding.Scope.Basic
import DataBinding.Scope.Journal
import DataBinding.Scope.Options
import DataBinding.Scope.Stop
import DataBinding.Script.Definition
import DataBinding.Script.Literal
import DataBinding.Script.Node
import DataBinding.Script.Operand
import DataBinding.Script.Parser
import DataBinding.Script.Pattern
import DataBinding.Script.Reader
import DataBinding.Script.Rule
import DataBinding.Script.Statement
import DataBinding.Script.StatementEnd
import DataBinding.Synthesis.Basic
import DataBinding.Synthesis.ParameterNames
import DataBinding.Synthesis.Rename
import DataBinding.Template.ComponentState
import DataBinding.Template.Repeat
import DataBinding.Template.Rewrite
import DataBinding.Template.Walk
import DataBinding.Text.Basic
import DataBinding.Text.Blank
import DataBinding.Text.CharRanges
import DataBinding.Text.Identifier
import DataBinding.Text.Json
import DataBinding.Text.LowerCase
import DataBinding.Text.Printable
import DataBinding.Text.Quoted
import DataBinding.Text.Utf8
import DataBinding.Text.WordChar
import DataBinding.Transform
import DataBinding.Proofs.Results
import DataBinding.Proofs.Text.JsonRoom
import DataBinding.Proofs.Markup.Reading
import DataBinding.Proofs.Markup.Decoding
import DataBinding.Proofs.Template.Frame
import DataBinding.Proofs.Template.Attempts
import DataBinding.Proofs.Binding.Scanning
import DataBinding.Proofs.Binding.Decoding
import DataBinding.Proofs.Template.Sites
import DataBinding.Proofs.Template.Computation
import DataBinding.Proofs.Script.Braces
import DataBinding.Proofs.Component.Insertion
import DataBinding.Proofs.Transform.Frame
import DataBinding.Proofs.Transform.Phases
import DataBinding.Proofs.Transform.FixedPoint
import DataBinding.Proofs.Transform.Functions
import DataBinding.Proofs.Synthesis.Splicing
import DataBinding.Proofs.Expression.Derivation
import DataBinding.Proofs.Expression.Substitution
import DataBinding.Proofs.Expression.Slots
import DataBinding.Proofs.Markup.Writing
import DataBinding.Proofs.Text.LowerCase
import DataBinding.Proofs.Markup.Pieces
import DataBinding.Proofs.Markup.RoundTrip
import DataBinding.Proofs.Template.Outcome
import DataBinding.Proofs.Template.Obstacles
import DataBinding.Proofs.Markup.EndTag
import DataBinding.Proofs.Markup.RawText
import DataBinding.Proofs.Markup.RawElement
import DataBinding.Proofs.Transform.Script
import DataBinding.Proofs.Template.Visits
import DataBinding.Proofs.Template.Learning
import DataBinding.Proofs.Expression.Renaming
import DataBinding.Proofs.Lexeme.Words
import DataBinding.Proofs.Lexeme.Lookahead
import DataBinding.Proofs.Lexeme.Numbers
import DataBinding.Proofs.Expression.Lexing
import DataBinding.Proofs.Expression.Stretches
import DataBinding.Proofs.Expression.Pieces
import DataBinding.Proofs.Synthesis.ParameterNames
import DataBinding.Proofs.Synthesis.Replacement
import DataBinding.Proofs.Synthesis.Capture
import DataBinding.Proofs.Synthesis.Soundness
import DataBinding.Proofs.Text.SmallForms
import DataBinding.Proofs.Markup.Escaping
import DataBinding.Proofs.Markup.Values
import DataBinding.Proofs.Markup.Rows
import DataBinding.Proofs.Markup.Splicing
import DataBinding.Proofs.Markup.StartTags
import DataBinding.Proofs.Markup.Rendering
import DataBinding.Proofs.Markup.Setting
import DataBinding.Proofs.Markup.Rewriting
import DataBinding.Proofs.Markup.ReadBack
import DataBinding.Proofs.Markup.SteadyTags
import DataBinding.Proofs.Template.Uses
import DataBinding.Proofs.Files.Tree
import DataBinding.Proofs.Transform.Failure
import DataBinding.Proofs.Transform.Path
import DataBinding.Proofs.Files.Storing
import DataBinding.Proofs.Files.Loading
import DataBinding.Proofs.Command.Building
import DataBinding.Proofs.Command.Agreement
import DataBinding.Proofs.Command.OutDirectory
import DataBinding.Proofs.Synthesis.Spans
import DataBinding.Proofs.Synthesis.Simultaneous
import DataBinding.Proofs.Expression.Extents
import DataBinding.Proofs.Expression.Leaves
import DataBinding.Proofs.Lexeme.Closing
import DataBinding.Proofs.Expression.Shifting
import DataBinding.Proofs.Expression.Enclosing
import DataBinding.Proofs.Expression.Nesting
import DataBinding.Proofs.Lexeme.Identifiers
import DataBinding.Proofs.Binding.Swapping
import DataBinding.Proofs.Binding.Leftmost
import DataBinding.Proofs.Synthesis.Calls
import DataBinding.Proofs.Template.AtRest
import DataBinding.Proofs.Expression.Heights
import DataBinding.Proofs.Template.TwoWay
import DataBinding.Proofs.Synthesis.Separators
import DataBinding.Proofs.Script.Runs
import DataBinding.Proofs.Script.Openings
import DataBinding.Proofs.Transform.Mentions
import DataBinding.Proofs.Markup.Ledger
import DataBinding.Proofs.Markup.Shape
import DataBinding.Proofs.Markup.AttributePattern
import DataBinding.Proofs.Markup.InPlace
