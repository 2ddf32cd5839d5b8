import GuardTree.CommandLine.Arguments
import GuardTree.CommandLine.Run
import GuardTree.CommandLine.Usage
import GuardTree.CommandLine.Variable
import GuardTree.Decimal.Nearest
import GuardTree.Decimal.Notation
import GuardTree.Decimal.Reader
import GuardTree.Decimal.Report
import GuardTree.Decimal.Shortest
import GuardTree.Document.Format
import GuardTree.Document.Load
import GuardTree.Document.Render
import GuardTree.Formula.Error
import GuardTree.Formula.Eval
import GuardTree.Formula.Expr
import GuardTree.Formula.Lexer
import GuardTree.Formula.Parser
import GuardTree.Formula.Token
import GuardTree.Formula.Value
import GuardTree.Json.Choice
import GuardTree.Json.Number
import GuardTree.Json.Reader
import GuardTree.Json.Writer
import GuardTree.Main
import GuardTree.Placeholder.Basic
import GuardTree.Placeholder.Expansion
import GuardTree.Reduction.Engine
import GuardTree.Reduction.Failure
import GuardTree.Reduction.Policy
import GuardTree.Reduction.Record
import GuardTree.Reduction.Reduce
import GuardTree.Reduction.Selection
import GuardTree.Reduction.Session
import GuardTree.Reduction.Traced
import GuardTree.Text.CharClass
import GuardTree.Text.CodeRange
import GuardTree.Text.Hex
import GuardTree.Text.Property.Alphabetic
import GuardTree.Text.Property.Graphic
import GuardTree.Text.Property.Mark
import GuardTree.Text.Property.Numeric
import GuardTree.Text.Property.Recent
import GuardTree.Text.Property.Space
import GuardTree.Text.Quoted
import GuardTree.Text.Size
import GuardTree.Text.Trim
import GuardTree.Tree.Measure
import GuardTree.Tree.Node
import GuardTree.Tree.OrderedMap
import GuardTree.Yaml.Character
import GuardTree.Yaml.Cursor
import GuardTree.Yaml.Document
import GuardTree.Yaml.Layout
import GuardTree.Yaml.Lexeme.Block
import GuardTree.Yaml.Lexeme.Directive
import GuardTree.Yaml.Lexeme.Plain
import GuardTree.Yaml.Lexeme.Property
import GuardTree.Yaml.Lexeme.Quoted
import GuardTree.Yaml.Lexeme.Separation
import GuardTree.Yaml.Reader
import GuardTree.Yaml.Schema
import GuardTree.Yaml.Style
import GuardTree.Yaml.Token
import GuardTree.Yaml.Tree
import GuardTree.Yaml.Writer
import GuardTree.Proofs.Formula.GuardShape
import GuardTree.Proofs.Reduction.GuardFree
import GuardTree.Proofs.Tree.EntryList
import GuardTree.Proofs.Reduction.GuardFaults
import GuardTree.Proofs.Reduction.ConcreteKeys
import GuardTree.Proofs.Reduction.Unselected
import GuardTree.Proofs.Reduction.Answers
import GuardTree.Proofs.Reduction.FixedPoint
import GuardTree.Proofs.Reduction.OpaqueLeaves
import GuardTree.Proofs.Json.RoundTrip
import GuardTree.Proofs.Formula.Nesting
import GuardTree.Proofs.Reduction.NothingKnown
import GuardTree.Proofs.Yaml.Ending
import GuardTree.Proofs.Yaml.Key
import GuardTree.Proofs.Decimal.FloatOfInt
import GuardTree.Proofs.Formula.Order
import GuardTree.Proofs.Reduction.Decision
import GuardTree.Proofs.Reduction.Renaming
import GuardTree.Proofs.Placeholder.Lookups
import GuardTree.Proofs.Placeholder.Cutting
import GuardTree.Proofs.Placeholder.Patterns
import GuardTree.Proofs.Reduction.Termination
import GuardTree.Proofs.CommandLine.VariableName
import GuardTree.Proofs.Formula.IntegerArithmetic
import GuardTree.Proofs.Formula.Connectives
import GuardTree.Proofs.Formula.ComparisonChains
import GuardTree.Proofs.Reduction.GuardValues
import GuardTree.Proofs.Formula.WrittenValues
import GuardTree.Proofs.Placeholder.Leftover
import GuardTree.Proofs.Document.ReadPairs
import GuardTree.Proofs.Formula.TokenTexts
import GuardTree.Proofs.Formula.Escapes
import GuardTree.Proofs.Formula.FaultPositions
