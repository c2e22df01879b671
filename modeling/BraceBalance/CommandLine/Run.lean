/-
  Running a command line on a file system.
-/
import BraceBalance.CommandLine.Flag
import BraceBalance.Watch.Monitor

set_option autoImplicit false

namespace BraceBalance.CommandLine

/-- The file that is scanned when the command line names none. -/
def defaultFile : String := "temp_js_new.js"

/-- The help text. -/
def helpText : String :=
  "Scans a single file line by line, reporting closing braces without a\n" ++
  "matching opening brace, opening braces left unclosed at end of file, and\n" ++
  "function declaration sites. Matching is purely lexical: braces inside\n" ++
  "strings and comments are counted like any other.\n" ++
  "\n" ++
  "If no filename is given, " ++ defaultFile ++ " is scanned. A filename\n" ++
  "starting with \"-\" must follow \"--\", as in: bracecheck -- -draft.js\n" ++
  "\n" ++
  "Usage:\n" ++
  "  bracecheck [filename] [flags]\n" ++
  "\n" ++
  "Flags:\n" ++
  "      --debug   Enable debug logging on stderr\n" ++
  "  -h, --help    help for bracecheck\n" ++
  "      --json    Output the report in JSON format\n" ++
  "  -w, --watch   Re-scan the file every time it changes\n"

/-- The file to scan: the first argument.  Further arguments are only logged. -/
def chooseFile : List Bytes → Bytes × List Log.Entry
  | [] => (Bytes.ofString defaultFile, [])
  | [file] => (file, [])
  | file :: rest => (file, [.argumentsIgnored rest])

/-- What a run of the program shows. -/
structure Outcome where
  exitCode : Nat
  stdout : Bytes
  /-- What is written to the error stream besides the log. -/
  stderr : Bytes
  /-- The entries of the log, in order. -/
  log : List Log.Entry
  deriving DecidableEq, Repr

/-- The outcome of a command line that is wrong. -/
def UsageError.outcome (error : UsageError) : Outcome where
  exitCode := 1
  stdout := []
  stderr := Bytes.ofString "Error: " ++ error.message ++ [lf]
  log := []

/-- What a request for a scan amounts to. -/
structure Plan where
  file : Bytes
  format : Format
  watch : Bool
  /-- The least severe level that is logged. -/
  threshold : Log.Level
  /-- What choosing the file had to say to the log. -/
  log : List Log.Entry
  deriving DecidableEq, Repr

/-- The plan of an invocation. -/
def Invocation.plan (invocation : Invocation) : Plan where
  file := (chooseFile invocation.arguments).1
  format := if invocation.settings.json then .json else .text
  watch := invocation.settings.watch
  threshold := .ofDebug invocation.settings.debug
  log := (chooseFile invocation.arguments).2

/-- The log of a plan as it is written: entries from the threshold on, with well-formed
texts. -/
def Plan.written (plan : Plan) (log : List Log.Entry) : List Log.Entry :=
  (Log.visible plan.threshold log).map (·.mapTexts fun text => Utf8.encode (Utf8.replacing text))

/-- Carries out a plan up to the point where watching, if asked for, has started. -/
def Plan.run (plan : Plan) (files : FileSystem) : Outcome :=
  let console : Console := ⟨.unbounded, plan.log⟩
  let (result, console) : Except MonitorError Unit × Console :=
    if plan.watch then
      match Monitor.start files plan.file plan.format console with
      | (.ok _, console) => (.ok (), console)
      | (.error error, console) => (.error error, console)
    else Monitor.once files plan.file plan.format console
  match result with
  | .ok () => ⟨0, console.sink.contents, [], plan.written console.log⟩
  | .error error =>
    ⟨1, console.sink.contents, [],
      plan.written (console.log ++ [.gaveUp plan.file error.message])⟩

/-- Runs a command line.  All flags are read first, so help is given only if none is
wrong. -/
def run (tokens : List Bytes) (files : FileSystem) : Outcome :=
  match parse tokens with
  | .error error => error.outcome
  | .ok invocation =>
    if invocation.settings.help then ⟨0, Bytes.ofString helpText, [], []⟩
    else invocation.plan.run files

end BraceBalance.CommandLine
