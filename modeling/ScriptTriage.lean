import ScriptTriage.Analysis
import ScriptTriage.Candidate
import ScriptTriage.Command
import ScriptTriage.Command.Arguments
import ScriptTriage.Command.FileSystem
import ScriptTriage.Command.Help
import ScriptTriage.Failure
import ScriptTriage.Findings
import ScriptTriage.Location
import ScriptTriage.Lowering
import ScriptTriage.Main
import ScriptTriage.Node
import ScriptTriage.Number.Binary64
import ScriptTriage.Number.Literal
import ScriptTriage.Number.Radix
import ScriptTriage.Number.Shortest
import ScriptTriage.Options
import ScriptTriage.Options.Load
import ScriptTriage.OrderedSet
import ScriptTriage.Proofs.Candidate
import ScriptTriage.Proofs.Command
import ScriptTriage.Proofs.Interleaving
import ScriptTriage.Proofs.Json.Reader
import ScriptTriage.Proofs.Lowering.Cut
import ScriptTriage.Proofs.Lowering.Descent
import ScriptTriage.Proofs.Lowering.Padding
import ScriptTriage.Proofs.Lowering.Visibility
import ScriptTriage.Proofs.Number.Numeral
import ScriptTriage.Proofs.OrderedSet
import ScriptTriage.Proofs.Report.Lossless
import ScriptTriage.Proofs.Session
import ScriptTriage.Proofs.Text.Spelling
import ScriptTriage.Proofs.Text.Utf16
import ScriptTriage.Proofs.Text.Value
import ScriptTriage.Proofs.Walk.Erasure
import ScriptTriage.Proofs.Walk.Merge
import ScriptTriage.Proofs.Walk.Rearrangement
import ScriptTriage.Proofs.Walk.Sink
import ScriptTriage.Proofs.Walk.Site
import ScriptTriage.Proofs.Walk.Stack
import ScriptTriage.Proofs.Walk.Threshold
import ScriptTriage.Proofs.Walk.Trace
import ScriptTriage.Reader.Chars
import ScriptTriage.Reader.Expression
import ScriptTriage.Reader.Goal
import ScriptTriage.Reader.Kinds
import ScriptTriage.Reader.Lexeme
import ScriptTriage.Reader.Machine
import ScriptTriage.Reader.Member
import ScriptTriage.Reader.Piece
import ScriptTriage.Reader.Quoted
import ScriptTriage.Reader.Script
import ScriptTriage.Reader.Semicolon
import ScriptTriage.Reader.Statement
import ScriptTriage.Reader.Token
import ScriptTriage.Registry
import ScriptTriage.Report
import ScriptTriage.Report.Json
import ScriptTriage.Report.Terminal
import ScriptTriage.Session
import ScriptTriage.Text.Escape
import ScriptTriage.Text.Hex
import ScriptTriage.Text.Quoted
import ScriptTriage.Text.Utf16
import ScriptTriage.Text.Utf8
import ScriptTriage.Tree
import ScriptTriage.Walk
import ScriptTriage.Walk.Collector
import ScriptTriage.Walk.Operator
import ScriptTriage.Yaml.Document
import ScriptTriage.Yaml.Resolve
import ScriptTriage.Yaml.Scalar
import ScriptTriage.Yaml.Source
import ScriptTriage.Yaml.Token
import ScriptTriage.Proofs.Lowering.Position
import ScriptTriage.Proofs.Lowering.DepthLimit
import ScriptTriage.Proofs.Report.Lines
import ScriptTriage.Proofs.Report.Color
import ScriptTriage.Proofs.Walk.Outside
import ScriptTriage.Proofs.Walk.Repeats
import ScriptTriage.Proofs.Number.Form
import ScriptTriage.Proofs.Options
import ScriptTriage.Proofs.Lowering.Origin
import ScriptTriage.Proofs.Text.Length
import ScriptTriage.Proofs.Origin
import ScriptTriage.Proofs.Reader.Legible
import ScriptTriage.Proofs.Reader.Step
import ScriptTriage.Proofs.Reader.Statement
import ScriptTriage.Proofs.Reader.Strings
import ScriptTriage.Proofs.LiteralLength
