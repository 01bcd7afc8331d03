import QueryGlean.Cache
import QueryGlean.Command.Line
import QueryGlean.Command.Output
import QueryGlean.Command.Run
import QueryGlean.Console.Literal
import QueryGlean.Console.Markup
import QueryGlean.Console.Style
import QueryGlean.Console.Table
import QueryGlean.Console.Width
import QueryGlean.Console.Wrap
import QueryGlean.Diagnostic
import QueryGlean.Digest
import QueryGlean.Discovery
import QueryGlean.Document
import QueryGlean.Document.Record
import QueryGlean.Extraction.Basic
import QueryGlean.Extraction.Batch
import QueryGlean.Extraction.Reading
import QueryGlean.FileTree
import QueryGlean.Fragment
import QueryGlean.Fragment.Name
import QueryGlean.Fragment.OfTree
import QueryGlean.Graphql.BlockText
import QueryGlean.Graphql.Compact
import QueryGlean.Graphql.Document
import QueryGlean.Graphql.Lexer
import QueryGlean.Graphql.Parser
import QueryGlean.Graphql.Printer
import QueryGlean.Graphql.Quoted
import QueryGlean.Graphql.SyntaxError
import QueryGlean.Graphql.Token
import QueryGlean.Keyed
import QueryGlean.Language
import QueryGlean.Main
import QueryGlean.Path
import QueryGlean.Preprocessor
import QueryGlean.Proofs.Cache
import QueryGlean.Proofs.Command.Output
import QueryGlean.Proofs.Command.Showing
import QueryGlean.Proofs.Command.Status
import QueryGlean.Proofs.Console.Markup
import QueryGlean.Proofs.Console.Table
import QueryGlean.Proofs.Console.Verbatim
import QueryGlean.Proofs.Console.Wrap
import QueryGlean.Proofs.Discovery
import QueryGlean.Proofs.Extraction.Basic
import QueryGlean.Proofs.Extraction.Batch
import QueryGlean.Proofs.Extraction.Breakdown
import QueryGlean.Proofs.Extraction.Candidates
import QueryGlean.Proofs.Extraction.Completion
import QueryGlean.Proofs.Extraction.Contents
import QueryGlean.Proofs.Extraction.Errors
import QueryGlean.Proofs.Extraction.Events
import QueryGlean.Proofs.Extraction.FastPath
import QueryGlean.Proofs.Extraction.History
import QueryGlean.Proofs.Extraction.Isolation
import QueryGlean.Proofs.Extraction.Messages
import QueryGlean.Proofs.Extraction.Sharing
import QueryGlean.Proofs.Extraction.SingleFlight
import QueryGlean.Proofs.Extraction.Stale
import QueryGlean.Proofs.Extraction.Status
import QueryGlean.Proofs.FileTree
import QueryGlean.Proofs.Fragment.AllOrNothing
import QueryGlean.Proofs.Fragment.CamelCase
import QueryGlean.Proofs.Fragment.Dedupe
import QueryGlean.Proofs.Fragment.Firsts
import QueryGlean.Proofs.Fragment.LocationKey
import QueryGlean.Proofs.Fragment.Name
import QueryGlean.Proofs.Fragment.Normalize
import QueryGlean.Proofs.Fragment.OfTree
import QueryGlean.Proofs.Fragment.Provenance
import QueryGlean.Proofs.Fragment.SameName
import QueryGlean.Proofs.Fragment.SamePlace
import QueryGlean.Proofs.Fragment.Stable
import QueryGlean.Proofs.Fragment.Words
import QueryGlean.Proofs.Graphql.Acceptance
import QueryGlean.Proofs.Graphql.BlockText
import QueryGlean.Proofs.Graphql.Compact
import QueryGlean.Proofs.Graphql.Faults
import QueryGlean.Proofs.Graphql.Ignored
import QueryGlean.Proofs.Graphql.Lexemes
import QueryGlean.Proofs.Graphql.Lexer
import QueryGlean.Proofs.Graphql.Mentions
import QueryGlean.Proofs.Graphql.Name
import QueryGlean.Proofs.Graphql.Number
import QueryGlean.Proofs.Graphql.Offsets
import QueryGlean.Proofs.Graphql.Outline
import QueryGlean.Proofs.Graphql.Plain
import QueryGlean.Proofs.Graphql.Printed
import QueryGlean.Proofs.Graphql.Progress
import QueryGlean.Proofs.Graphql.Quoted
import QueryGlean.Proofs.Graphql.QuotedText
import QueryGlean.Proofs.Graphql.Reading
import QueryGlean.Proofs.Graphql.Valid
import QueryGlean.Proofs.Outcome
import QueryGlean.Proofs.Query.Attributes
import QueryGlean.Proofs.Query.Declarators
import QueryGlean.Proofs.Query.Extract
import QueryGlean.Proofs.Query.Forms
import QueryGlean.Proofs.Query.Global
import QueryGlean.Proofs.Query.Refusal
import QueryGlean.Proofs.Query.Shapes
import QueryGlean.Proofs.Query.Spelling
import QueryGlean.Proofs.Query.Starts
import QueryGlean.Proofs.Query.Warnings
import QueryGlean.Proofs.Runs
import QueryGlean.Proofs.Scope
import QueryGlean.Proofs.Source.Bytes
import QueryGlean.Proofs.Source.Item
import QueryGlean.Proofs.Source.Paths
import QueryGlean.Proofs.Source.Places
import QueryGlean.Proofs.Source.Preorder
import QueryGlean.Proofs.Source.Spans
import QueryGlean.Proofs.Watch.Coverage
import QueryGlean.Proofs.Watch.Delivery
import QueryGlean.Proofs.Watch.Lifecycle
import QueryGlean.Query.Extract
import QueryGlean.Query.Locate
import QueryGlean.Query.Tag
import QueryGlean.Report
import QueryGlean.Scope
import QueryGlean.Settings
import QueryGlean.Source.Automaton.Action
import QueryGlean.Source.Automaton.Basic
import QueryGlean.Source.Automaton.Production
import QueryGlean.Source.Automaton.Productions
import QueryGlean.Source.Automaton.State
import QueryGlean.Source.Automaton.TokenSet
import QueryGlean.Source.Character
import QueryGlean.Source.Grammar.Class
import QueryGlean.Source.Grammar.Expression
import QueryGlean.Source.Grammar.Language
import QueryGlean.Source.Grammar.Markup
import QueryGlean.Source.Grammar.Name
import QueryGlean.Source.Grammar.Part
import QueryGlean.Source.Grammar.Pattern
import QueryGlean.Source.Grammar.Rule
import QueryGlean.Source.Grammar.Statement
import QueryGlean.Source.Grammar.Type
import QueryGlean.Source.Insertion
import QueryGlean.Source.Item
import QueryGlean.Source.Lexical
import QueryGlean.Source.Parse
import QueryGlean.Source.Parse.Reader
import QueryGlean.Source.Parse.Stacks
import QueryGlean.Source.Parse.Subtree
import QueryGlean.Source.Scan
import QueryGlean.Source.Text
import QueryGlean.Source.Token
import QueryGlean.Source.Tree
import QueryGlean.Source.Walk
import QueryGlean.Text.Blank
import QueryGlean.Text.Digit
import QueryGlean.Text.Hex
import QueryGlean.Text.Lower
import QueryGlean.Text.Printable
import QueryGlean.Text.Quoted
import QueryGlean.Text.Utf8
import QueryGlean.Text.Word
import QueryGlean.Value
import QueryGlean.Value.Binary64
import QueryGlean.Value.Field
import QueryGlean.Watch

