import BraceBalance.CommandLine.Flag
import BraceBalance.CommandLine.Run
import BraceBalance.Declaration
import BraceBalance.Fault
import BraceBalance.FileSystem.Basic
import BraceBalance.FileSystem.Change
import BraceBalance.FileSystem.Scan
import BraceBalance.Line.Cut
import BraceBalance.Line.Reader
import BraceBalance.Line.Source
import BraceBalance.Log
import BraceBalance.Log.Line
import BraceBalance.Main
import BraceBalance.Path
import BraceBalance.Pending
import BraceBalance.Proofs.CommandLine
import BraceBalance.Proofs.Concatenation
import BraceBalance.Proofs.Counting
import BraceBalance.Proofs.Debounce
import BraceBalance.Proofs.Declaration
import BraceBalance.Proofs.Declaration.Grammar
import BraceBalance.Proofs.Declaration.Name
import BraceBalance.Proofs.Delivery
import BraceBalance.Proofs.FileSystem
import BraceBalance.Proofs.Findings
import BraceBalance.Proofs.Interruption
import BraceBalance.Proofs.Json.Grammar
import BraceBalance.Proofs.Json.Rendering
import BraceBalance.Proofs.LineText
import BraceBalance.Proofs.Location
import BraceBalance.Proofs.Matching
import BraceBalance.Proofs.Nesting
import BraceBalance.Proofs.Newline
import BraceBalance.Proofs.Output
import BraceBalance.Proofs.Path
import BraceBalance.Proofs.Recovery
import BraceBalance.Proofs.Run
import BraceBalance.Proofs.Session
import BraceBalance.Proofs.Spelling
import BraceBalance.Proofs.Splitting
import BraceBalance.Proofs.Terminators
import BraceBalance.Proofs.Utf8
import BraceBalance.Proofs.Watching
import BraceBalance.Proofs.WellFormed
import BraceBalance.Publish
import BraceBalance.Report.Basic
import BraceBalance.Report.Json
import BraceBalance.Report.Summary
import BraceBalance.Scan
import BraceBalance.Sink
import BraceBalance.Text.Decimal
import BraceBalance.Text.Hex
import BraceBalance.Text.Json
import BraceBalance.Text.Quoted
import BraceBalance.Text.Utf8
import BraceBalance.Unicode.Class
import BraceBalance.Unicode.Letter
import BraceBalance.Unicode.Mark
import BraceBalance.Unicode.Number
import BraceBalance.Unicode.Punctuation
import BraceBalance.Unicode.Symbol
import BraceBalance.Watch.Debounce
import BraceBalance.Watch.Event
import BraceBalance.Watch.Loop
import BraceBalance.Watch.Monitor
