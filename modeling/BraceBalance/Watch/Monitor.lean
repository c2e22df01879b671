/-
  Scanning a file once, and again after every change while it is watched.
-/
import BraceBalance.FileSystem.Scan
import BraceBalance.Watch.Loop

set_option autoImplicit false

namespace BraceBalance

/-- What a program has written and logged. -/
structure Console where
  sink : Sink
  log : List Log.Entry
  deriving DecidableEq, Repr

/-- Why a scan, or watching behind it, came to an end. -/
inductive MonitorError where
  | publishing (error : PublishError)
  | watching (error : Watch.WatchError)
  deriving DecidableEq, Repr

/-- The wording of a monitor error. -/
def MonitorError.message : MonitorError → Bytes
  | .publishing error => error.message
  | .watching error => error.message

namespace Console

/-- Nothing is written or logged yet. -/
def empty : Console := ⟨.unbounded, []⟩

/-- Publishes the findings in a file. -/
def publish (console : Console) (files : FileSystem) (path : Bytes) (format : Format) :
    Except PublishError Report × Console :=
  let published := files.publish path format console.sink
  (published.result, ⟨published.sink, console.log ++ published.log⟩)

/-- Publishes anew, behind an empty line.  A failure is only logged: the file may be in the
middle of being saved, and the next change gives another chance. -/
def republish (path : Bytes) (format : Format) (files : FileSystem) (console : Console) :
    Console :=
  let console := { console with sink := (console.sink.write [lf]).1 }
  match console.publish files path format with
  | (.ok _, console) => console
  | (.error error, console) =>
    { console with log := console.log ++ [.rescanFailed path error.message] }

/-- What is done while a file is watched: an event is logged, and a change is published. -/
def attend (path : Bytes) (format : Format) : Watch.Signal → Console → Console
  | .noted event, console =>
    { console with log := console.log ++ [.eventNoted event.path event.kindsText] }
  | .changed files, console => republish path format files console

end Console

namespace Monitor

/-- Scans a file once. -/
def once (files : FileSystem) (path : Bytes) (format : Format) (console : Console) :
    Except MonitorError Unit × Console :=
  match console.publish files path format with
  | (.ok _, console) => (.ok (), console)
  | (.error error, console) => (.error (.publishing error), console)

/-- Scans a file once and starts watching it.  Watching starts only behind a scan that
succeeded. -/
def start (files : FileSystem) (path : Bytes) (format : Format) (console : Console) :
    Except MonitorError (Watch.Loop Console) × Console :=
  match once files path format console with
  | (.error error, console) => (.error error, console)
  | (.ok (), console) =>
    match Watch.start files path console with
    | .error error => (.error (.watching error), console)
    | .ok loop =>
      let console := { console with log := console.log ++ [.watching loop.target] }
      (.ok { loop with value := console }, console)

end Monitor

end BraceBalance
