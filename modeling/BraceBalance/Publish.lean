/-
  Publishing a scan: its findings are written to a sink.

  In text format each extra closing brace is written as soon as it is met and the summary
  follows at the end.  In JSON format one document is written at the end.  A scan that fails
  is logged and nothing is written at its end; a write that fails ends the output.
-/
import BraceBalance.Report.Json
import BraceBalance.Report.Summary
import BraceBalance.Scan
import BraceBalance.Sink

set_option autoImplicit false

namespace BraceBalance

/-- How findings are written. -/
inductive Format where
  /-- Extra closing braces as they are met, then the summary. -/
  | text
  /-- One JSON document. -/
  | json
  /-- The summary alone. -/
  | summary
  deriving DecidableEq, Repr

namespace Format

/-- The format of a number: 0 is text and 1 is JSON. -/
def ofInt (n : Int) : Format := if n = 0 then .text else if n = 1 then .json else .summary

/-- Whether extra closing braces are written as they are met. -/
def streams : Format → Bool
  | .text => true
  | .json => false
  | .summary => false

/-- What is written at the end of a scan. -/
def closing (format : Format) (report : Report) : Bytes :=
  match format with
  | .json => report.json
  | .text => report.summary
  | .summary => report.summary

end Format

/-- Why findings were not published. -/
inductive PublishError where
  /-- The scan failed. -/
  | scanning (error : ScanError)
  /-- A write was refused. -/
  | writing (fault : WriteFault)
  deriving DecidableEq, Repr

/-- The wording of a publishing error. -/
def PublishError.message : PublishError → Bytes
  | .scanning error => error.message
  | .writing fault => Bytes.ofString "error writing report: " ++ fault.message

/-- What publishing leaves behind. -/
structure Published where
  /-- The report, if all of it was written. -/
  result : Except PublishError Report
  /-- The sink behind the writes. -/
  sink : Sink
  /-- The log of the scan and of publishing it. -/
  log : List Log.Entry

/-- Publishes the findings of a scan under a name.  `scan` is told whether somebody listens:
only then does it name the extra closing braces as it meets them.  An error of the scan comes
before a refused write. -/
def publish (scan : Bool → ScanRun) (name : Bytes) (format : Format) (sink : Sink) : Published :=
  let run := scan format.streams
  let (sink, refused) := sink.writeAll (run.heard.map Report.extraClosingLine)
  match run.result with
  | .error error => ⟨.error (.scanning error), sink, run.log ++ [.scanFailed name error.message]⟩
  | .ok report =>
    match refused with
    | some fault => ⟨.error (.writing fault), sink, run.log⟩
    | none =>
      match sink.write (format.closing report) with
      | (sink, none) => ⟨.ok report, sink, run.log⟩
      | (sink, some fault) => ⟨.error (.writing fault), sink, run.log⟩

end BraceBalance
