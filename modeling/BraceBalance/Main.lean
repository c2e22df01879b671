/-
  The program.  It looks at the part of the real file system that a command line names, runs
  the command line on it and shows the outcome; in watch mode it looks again every tenth of
  a second and lets the watching machine decide when to scan anew.
-/
import BraceBalance.CommandLine.Run
import BraceBalance.Log.Line

set_option autoImplicit false

namespace BraceBalance.Program

/-- Writes bytes to a stream. -/
def emit (stream : IO.FS.Stream) (bytes : Bytes) : IO Unit := do
  stream.write ⟨bytes.toArray⟩
  stream.flush

/-- Shows what was written and logged. -/
def report (stdout stderr : Bytes) (log : List Log.Entry) : IO Unit := do
  emit (← IO.getStdout) stdout
  emit (← IO.getStderr) (stderr ++ (log.map Log.Entry.line).flatten)

/-- The text of a path. -/
def spelling (path : Bytes) : String := String.ofList (Utf8.replacing path)

/-- Adds what really stands at a place, if anything does. -/
def lookAt (files : FileSystem) (place : Location) : IO FileSystem := do
  let path := (← IO.currentDir) / spelling (Path.absolute place)
  if ← path.isDir then return files.put place .directory
  else if ← path.pathExists then return files.put place (.file (← IO.FS.readBinFile path).toList)
  else return files

/-- The part of the file system on the way to a path. -/
def look (path : Bytes) : IO FileSystem := do
  let here := Path.kept (Bytes.ofString (← IO.currentDir).toString)
  let files := FileSystem.empty here
  let components := Path.split path
  let rooted := Path.isRooted path
  let spelled := (List.range components.length).map fun n =>
    let start := Path.join (components.take (n + 1))
    if rooted then Path.slash :: start else start
  (spelled.map files.locate).foldlM lookAt files

/-- Watches the planned file: a difference between two looks is an event, and a look without
difference lets the timer run out. -/
partial def watch (plan : CommandLine.Plan) (loop : Watch.Loop Console) : IO Unit := do
  IO.sleep 100
  let files ← look plan.file
  let action := Console.attend plan.file plan.format
  let changed := files.nodes != loop.files.nodes
  let present := (files.node? (files.locate plan.file)).isSome
  let loop := { loop with files, value := Console.empty }
  let loop :=
    if changed then
      loop.advance action
        (.receive ⟨loop.target, if present then Event.write else Event.remove⟩)
    else loop.settle action
  report loop.value.sink.contents [] (plan.written loop.value.log)
  watch plan loop

end BraceBalance.Program

open BraceBalance in
/-- Runs the program on the command line's tokens. -/
def main (args : List String) : IO UInt32 := do
  let tokens := args.map Bytes.ofString
  match CommandLine.parse tokens with
  | .error error =>
    let outcome := error.outcome
    Program.report outcome.stdout outcome.stderr outcome.log
    return 1
  | .ok invocation =>
    let plan := invocation.plan
    let files ← Program.look plan.file
    let outcome := CommandLine.run tokens files
    Program.report outcome.stdout outcome.stderr outcome.log
    if outcome.exitCode = 0 ∧ plan.watch ∧ ¬ invocation.settings.help then
      match Watch.start files plan.file Console.empty with
      | .ok loop => Program.watch plan loop
      | .error _ => return 1
    return outcome.exitCode.toUInt32
