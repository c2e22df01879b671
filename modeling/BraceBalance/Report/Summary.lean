/-
  The report as text.  Totals are complete; the lists show the last entries only.
-/
import BraceBalance.Report.Basic
import BraceBalance.Text.Decimal

set_option autoImplicit false

namespace BraceBalance.Report

/-- What is said of a closing brace without partner. -/
def extraClosingText (position : Position) : Bytes :=
  Bytes.ofString "Extra closing brace at line " ++ Decimal.ofInt position.line ++
    Bytes.ofString ", pos " ++ Decimal.ofInt position.column

/-- The same as a line of output. -/
def extraClosingLine (position : Position) : Bytes := extraClosingText position ++ [0x0A]

/-- A line of the summary that gives a total. -/
def totalLine (label : String) (total : Nat) : Bytes :=
  Bytes.ofString label ++ Bytes.ofString ": " ++ Decimal.ofNat total ++ [0x0A]

/-- The summary's line on an unclosed brace. -/
def unclosedLine (brace : OpenBrace) : Bytes :=
  Bytes.ofString "  Line " ++ Decimal.ofInt brace.position.line ++
    Bytes.ofString ", position " ++ Decimal.ofInt brace.position.column ++ [0x0A]

/-- The summary's line on a function site. -/
def functionLine (site : FunctionSite) : Bytes :=
  Bytes.ofString "  " ++ site.name ++ Bytes.ofString " at line " ++ Decimal.ofInt site.line ++
    [0x0A]

/-- A heading and the lines under it; nothing at all if there are no lines. -/
def listing (heading : Bytes) (lines : List Bytes) : Bytes :=
  if lines.isEmpty then [] else heading ++ [0x0A] ++ lines.flatten

/-- The summary of a report. -/
def summary (report : Report) : Bytes :=
  totalLine "Unclosed braces" report.unclosed.length ++
    listing (Bytes.ofString "Unclosed braces found at:")
      ((report.unclosedTail maxListed).map unclosedLine) ++
    totalLine "Functions found" report.functions.length ++
    listing (Bytes.ofString "Last " ++ Decimal.ofInt maxListed ++ Bytes.ofString " functions:")
      ((report.functionTail maxListed).map functionLine)

end BraceBalance.Report
