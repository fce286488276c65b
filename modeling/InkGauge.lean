import InkGauge.Analysis.Contract
import InkGauge.Analysis.DryNib
import InkGauge.Analysis.Function
import InkGauge.Analysis.Suggestion
import InkGauge.Command.Argument
import InkGauge.Command.Page
import InkGauge.Command.Request
import InkGauge.Command.Run
import InkGauge.Command.Script
import InkGauge.Contract.EntryPoint
import InkGauge.Contract.Grammar.Expr
import InkGauge.Contract.Grammar.Item
import InkGauge.Contract.Grammar.Lexical
import InkGauge.Contract.Grammar.Pattern
import InkGauge.Contract.Grammar.Rule
import InkGauge.Contract.Grammar.Stmt
import InkGauge.Contract.Grammar.Type
import InkGauge.Contract.Parse
import InkGauge.Contract.Printer
import InkGauge.Contract.Token
import InkGauge.Contract.Tree
import InkGauge.Cost.Classify
import InkGauge.Cost.Entity
import InkGauge.Cost.Evidence
import InkGauge.Cost.Model
import InkGauge.Cost.Operation
import InkGauge.Diagnostic
import InkGauge.Files.Disk
import InkGauge.Json.Reader
import InkGauge.Json.Value
import InkGauge.Log
import InkGauge.Main
import InkGauge.Number.Binary64
import InkGauge.Number.Decimal
import InkGauge.Number.Literal
import InkGauge.Peg.Basic
import InkGauge.Peg.Cursor
import InkGauge.Peg.Run
import InkGauge.Probe.Check
import InkGauge.Probe.Dump
import InkGauge.Probe.Edit
import InkGauge.Probe.Emitter
import InkGauge.Probe.Instrument
import InkGauge.Probe.Module
import InkGauge.Probe.Site
import InkGauge.Probe.Thresholds
import InkGauge.Probe.Tracker
import InkGauge.Proofs.Analysis.Anchored
import InkGauge.Proofs.Analysis.Balance
import InkGauge.Proofs.Analysis.Columns
import InkGauge.Proofs.Analysis.CommentCost
import InkGauge.Proofs.Analysis.Division
import InkGauge.Proofs.Analysis.Groups
import InkGauge.Proofs.Analysis.Hotspot
import InkGauge.Proofs.Analysis.Overcharge
import InkGauge.Proofs.Analysis.Reads
import InkGauge.Proofs.Analysis.Redundant
import InkGauge.Proofs.Analysis.Reported
import InkGauge.Proofs.Contract.Alike
import InkGauge.Proofs.Contract.Comment
import InkGauge.Proofs.Contract.Commented
import InkGauge.Proofs.Contract.Discovery
import InkGauge.Proofs.Contract.Ending
import InkGauge.Proofs.Contract.Ink
import InkGauge.Proofs.Contract.Keeps
import InkGauge.Proofs.Contract.Ladder
import InkGauge.Proofs.Contract.Layout
import InkGauge.Proofs.Contract.Lexeme
import InkGauge.Proofs.Contract.Node
import InkGauge.Proofs.Contract.Operator
import InkGauge.Proofs.Contract.Reads
import InkGauge.Proofs.Contract.Rearranged
import InkGauge.Proofs.Contract.Reparse
import InkGauge.Proofs.Contract.Respan
import InkGauge.Proofs.Contract.RoundTrip
import InkGauge.Proofs.Contract.Row
import InkGauge.Proofs.Contract.SpanInvariant
import InkGauge.Proofs.Contract.Termination
import InkGauge.Proofs.Contract.Token
import InkGauge.Proofs.Contract.Total
import InkGauge.Proofs.Contract.Watch
import InkGauge.Proofs.Cost.Chain
import InkGauge.Proofs.Cost.Evidence
import InkGauge.Proofs.Cost.Found
import InkGauge.Proofs.Number.Range
import InkGauge.Proofs.Peg.Answer
import InkGauge.Proofs.Peg.Derivation
import InkGauge.Proofs.Peg.Insertion
import InkGauge.Proofs.Peg.Parallel
import InkGauge.Proofs.Peg.Reads
import InkGauge.Proofs.Peg.Total
import InkGauge.Proofs.Probe.Caught
import InkGauge.Proofs.Probe.Coverage
import InkGauge.Proofs.Probe.EditOrder
import InkGauge.Proofs.Probe.FeatureOff
import InkGauge.Proofs.Probe.History
import InkGauge.Proofs.Probe.Label
import InkGauge.Proofs.Probe.Lenience
import InkGauge.Proofs.Probe.Patches
import InkGauge.Proofs.Probe.ReadBack
import InkGauge.Proofs.Probe.Recheck
import InkGauge.Proofs.Probe.Report
import InkGauge.Proofs.Probe.Session
import InkGauge.Proofs.Probe.SiteOrder
import InkGauge.Proofs.Probe.Splice
import InkGauge.Proofs.Settings.Accepted
import InkGauge.Proofs.Settings.Misfit
import InkGauge.Proofs.Settings.Reload
import InkGauge.Report.Format
import InkGauge.Settings.Config
import InkGauge.Settings.Load
import InkGauge.Settings.Setting
import InkGauge.Text.Blank
import InkGauge.Text.Digit
import InkGauge.Text.Lines
import InkGauge.Text.Pad
import InkGauge.Text.Printable
import InkGauge.Text.Quoted
import InkGauge.Text.Ranges
import InkGauge.Text.Search
import InkGauge.Text.Spacing
import InkGauge.Text.Trivia
import InkGauge.Text.Utf8
import InkGauge.Text.Ways
import InkGauge.Text.Word
import InkGauge.Proofs.Peg.Farthest
import InkGauge.Proofs.Contract.Fault
import InkGauge.Proofs.Contract.FaultLine
import InkGauge.Proofs.Contract.Modules
import InkGauge.Proofs.Probe.ModulePath
import InkGauge.Proofs.Contract.BeforeBlock
import InkGauge.Proofs.Contract.Trivia
import InkGauge.Proofs.Text.Spacing
import InkGauge.Proofs.Probe.Literal
