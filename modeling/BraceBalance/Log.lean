/-
  The log: what happened, with a level and named details for each kind of entry.
-/
import BraceBalance.Text.Utf8

set_option autoImplicit false

namespace BraceBalance.Log

/-! ## Levels -/

/-- The levels of a log, from the least to the most severe. -/
inductive Level where
  | debug
  | info
  | warn
  | error
  | dpanic
  | panic
  | fatal
  deriving DecidableEq, Repr, Inhabited

namespace Level

/-- All levels, from the least to the most severe. -/
def all : List Level := [.debug, .info, .warn, .error, .dpanic, .panic, .fatal]

/-- The place of a level in the order of severity. -/
def severity : Level → Nat
  | .debug => 0
  | .info => 1
  | .warn => 2
  | .error => 3
  | .dpanic => 4
  | .panic => 5
  | .fatal => 6

/-- The name of a level. -/
def name : Level → String
  | .debug => "debug"
  | .info => "info"
  | .warn => "warn"
  | .error => "error"
  | .dpanic => "dpanic"
  | .panic => "panic"
  | .fatal => "fatal"

/-- Whether a log with the given threshold takes entries of a level. -/
def admits (threshold level : Level) : Bool := threshold.severity ≤ level.severity

/-- The levels that a log with the given threshold takes. -/
def enabled (threshold : Level) : List Level := all.filter threshold.admits

/-- The threshold of the program's log: warnings and worse, or everything when debugging. -/
def ofDebug (debug : Bool) : Level := if debug then .debug else .warn

end Level

/-! ## Entries -/

/-- What a log can tell. -/
inductive Entry where
  /-- A scan reached the end of the file; the counts are those of its findings. -/
  | scanComplete (file : Bytes) (lines unclosed extraClosing functions : Nat)
  /-- A scan failed. -/
  | scanFailed (file error : Bytes)
  /-- Arguments behind the file name are not used. -/
  | argumentsIgnored (arguments : List Bytes)
  /-- The file, by its absolute path, is being watched. -/
  | watching (file : Bytes)
  /-- An event of the watched file came; `kinds` names its kinds. -/
  | eventNoted (file kinds : Bytes)
  /-- The scan after a change failed; watching goes on. -/
  | rescanFailed (file error : Bytes)
  /-- The program gives up. -/
  | gaveUp (file error : Bytes)
  deriving DecidableEq, Repr

/-- A detail of an entry. -/
inductive Detail where
  | text (value : Bytes)
  | texts (values : List Bytes)
  | count (value : Nat)
  deriving DecidableEq, Repr

namespace Entry

/-- The level of an entry. -/
def level : Entry → Level
  | .scanComplete .. => .debug
  | .scanFailed .. => .error
  | .argumentsIgnored .. => .debug
  | .watching .. => .debug
  | .eventNoted .. => .debug
  | .rescanFailed .. => .warn
  | .gaveUp .. => .fatal

/-- The wording of an entry. -/
def message : Entry → String
  | .scanComplete .. => "Scan complete"
  | .scanFailed .. => "Error scanning file"
  | .argumentsIgnored .. => "Ignoring extra arguments"
  | .watching .. => "Watching file"
  | .eventNoted .. => "File event"
  | .rescanFailed .. => "Re-scan failed"
  | .gaveUp .. => "Failed to scan file"

/-- The named details of an entry. -/
def details : Entry → List (String × Detail)
  | .scanComplete file lines unclosed extraClosing functions =>
    [("file", .text file), ("lines", .count lines), ("unclosed", .count unclosed),
      ("extra_closing", .count extraClosing), ("functions", .count functions)]
  | .scanFailed file error => [("file", .text file), ("error", .text error)]
  | .argumentsIgnored arguments => [("args", .texts arguments)]
  | .watching file => [("file", .text file)]
  | .eventNoted file kinds => [("file", .text file), ("op", .text kinds)]
  | .rescanFailed file error => [("file", .text file), ("error", .text error)]
  | .gaveUp file error => [("file", .text file), ("error", .text error)]

/-- The entry with each of its texts changed. -/
def mapTexts (f : Bytes → Bytes) : Entry → Entry
  | .scanComplete file lines unclosed extraClosing functions =>
    .scanComplete (f file) lines unclosed extraClosing functions
  | .scanFailed file error => .scanFailed (f file) (f error)
  | .argumentsIgnored arguments => .argumentsIgnored (arguments.map f)
  | .watching file => .watching (f file)
  | .eventNoted file kinds => .eventNoted (f file) (f kinds)
  | .rescanFailed file error => .rescanFailed (f file) (f error)
  | .gaveUp file error => .gaveUp (f file) (f error)

end Entry

/-- The entries that a log with the given threshold takes. -/
def visible (threshold : Level) (entries : List Entry) : List Entry :=
  entries.filter fun entry => threshold.admits entry.level

end BraceBalance.Log
