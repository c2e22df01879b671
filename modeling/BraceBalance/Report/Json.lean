/-
  The report as a JSON document.  The list of extra closing braces is complete; of the
  unclosed braces and the functions the document gives the totals and the last entries.
-/
import BraceBalance.Report.Basic
import BraceBalance.Text.Json

set_option autoImplicit false

namespace BraceBalance

/-- The fields of a position. -/
def Position.record (position : Position) : Json.Record :=
  [("line", .int position.line), ("column", .int position.column)]

/-- The fields of an unclosed brace. -/
def OpenBrace.record (brace : OpenBrace) : Json.Record :=
  brace.position.record ++ [("kind", .text brace.kind)]

/-- The fields of a function site. -/
def FunctionSite.record (site : FunctionSite) : Json.Record :=
  [("name", .text site.name), ("line", .int site.line)]

namespace Report

/-- The document of a report. -/
def document (report : Report) : Json.Document :=
  [("filename", .scalar (.text report.filename)),
    ("extra_closing", .records (report.extraClosing.map Position.record)),
    ("unclosed_count", .scalar (.int report.unclosed.length)),
    ("unclosed", .records ((report.unclosedTail maxListed).map OpenBrace.record)),
    ("function_count", .scalar (.int report.functions.length)),
    ("functions", .records ((report.functionTail maxListed).map FunctionSite.record))]

/-- The written document of a report. -/
def json (report : Report) : Bytes := Json.Document.render report.document

end Report

end BraceBalance
