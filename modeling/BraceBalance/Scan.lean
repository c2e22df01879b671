/-
  Scanning a stream for unbalanced braces and function declarations.

  The scan is purely lexical.  Every character of every line counts for the column, the
  terminator included, and every brace counts, wherever it stands.  A listener hears of each
  closing brace without partner at the moment it is met, so it has heard of it even if the
  stream breaks later.
-/
import BraceBalance.Declaration
import BraceBalance.Line.Reader
import BraceBalance.Log
import BraceBalance.Pending

set_option autoImplicit false

namespace BraceBalance

/-- What becomes of a scan. -/
structure ScanRun where
  /-- The closing braces without partner that the listener heard of, in order. -/
  heard : List Position
  /-- The report, or why there is none. -/
  result : Except ScanError Report
  /-- What the scan has to say to a log. -/
  log : List Log.Entry

namespace Scan

/-- The findings so far; what was found is kept in the order of the file. -/
structure Progress where
  pending : Pending
  extraClosing : Array Position
  functions : Array FunctionSite
  /-- The positions told to the listener. -/
  heard : Array Position
  deriving DecidableEq, Repr

namespace Progress

/-- Nothing is found yet. -/
def start : Progress := ⟨.empty, #[], #[], #[]⟩

/-- A closing brace at a position: it closes the most recent open one, or has no partner. -/
def close (listening : Bool) (progress : Progress) (position : Position) : Progress :=
  match progress.pending.pop? with
  | some rest => { progress with pending := rest }
  | none =>
    { progress with
      extraClosing := progress.extraClosing.push position
      heard := if listening then progress.heard.push position else progress.heard }

/-- One character at a position. -/
def meet (listening : Bool) (progress : Progress) (position : Position) (c : Char) : Progress :=
  if c = '{' then { progress with pending := progress.pending.push position }
  else if c = '}' then progress.close listening position
  else progress

/-- The characters of a line from a column on. -/
def walk (listening : Bool) (number : Nat) :
    Nat → Progress → List Char → Progress
  | _, progress, [] => progress
  | column, progress, c :: rest =>
    walk listening number (column + 1) (progress.meet listening ⟨number, column⟩ c) rest

/-- A line's declaration is noted before its braces are looked at. -/
def declare (progress : Progress) (line : Line) : Progress :=
  match Declaration.detect? line.text with
  | some name =>
    { progress with functions := progress.functions.push ⟨Utf8.encode name, line.number⟩ }
  | none => progress

/-- One line. -/
def readLine (listening : Bool) (progress : Progress) (line : Line) : Progress :=
  walk listening line.number 0 (progress.declare line) line.text

/-- The report at the end of the file. -/
def report (progress : Progress) (filename : Bytes) : Report where
  filename := filename
  extraClosing := progress.extraClosing.toList
  unclosed := progress.pending.toList
  functions := progress.functions.toList

end Progress

/-- The findings in a list of lines. -/
def ofLines (listening : Bool) (lines : List Line) : Progress :=
  lines.foldl (Progress.readLine listening) .start

end Scan

/-- What a finished scan has to say to a log. -/
def Report.logEntry (report : Report) (lines : Nat) : Log.Entry :=
  .scanComplete report.filename lines report.unclosed.length report.extraClosing.length
    report.functions.length

/-- Scans a stream under a file name.  If the stream breaks there is no report and nothing
is logged, but the listener keeps what it heard. -/
def Source.scan (source : Source) (filename : Bytes) (listening : Bool) : ScanRun :=
  let (lines, reader) := (Reader.ofSource source).lines
  let progress := Scan.ofLines listening lines
  match reader.fault with
  | some fault => ⟨progress.heard.toList, .error (.reading filename fault), []⟩
  | none =>
    let report := progress.report filename
    ⟨progress.heard.toList, .ok report, [report.logEntry reader.current.number]⟩

end BraceBalance
