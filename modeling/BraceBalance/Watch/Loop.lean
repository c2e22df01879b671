/-
  A watched file inside a file system: changes are made, the events they cause reach the
  machine, and an action is told of each event that matters and of each reported change.
-/
import BraceBalance.Watch.Debounce

set_option autoImplicit false

namespace BraceBalance.Watch

/-- Why a file cannot be watched. -/
structure WatchError where
  /-- The directory that would have to be watched. -/
  directory : Bytes
  fault : PathFault
  deriving DecidableEq, Repr

/-- The wording of a watch error. -/
def WatchError.message (error : WatchError) : Bytes :=
  Bytes.ofString "error watching " ++ error.directory ++ Bytes.ofString ": " ++
    error.fault.message

/-- A file under watch; `α` is what the action works on. -/
structure Loop (α : Type) where
  files : FileSystem
  /-- The clean absolute path of the watched file. -/
  target : Bytes
  /-- Where the watched directory stands now; `none` if no events arrive. -/
  directory : Option Location
  state : State
  value : α

/-- Watches the directory that holds a path.  The directory has to exist, the file does
not.  A path that no system call can take, because it holds a NUL byte, is not refused, but
nothing is ever heard of it. -/
def start {α : Type} (files : FileSystem) (path : Bytes) (value : α) :
    Except WatchError (Loop α) :=
  let target := Path.resolve files.workingDirectory path
  let directory := Path.parent target
  match files.find directory with
  | .ok place => .ok ⟨files, target, some place, .start, value⟩
  | .error .invalidName => .ok ⟨files, target, none, .start, value⟩
  | .error fault => .error ⟨directory, fault⟩

/-- What an action is told of. -/
inductive Signal where
  /-- A relevant event has come. -/
  | noted (event : Event)
  /-- A change is reported; the file system is that of the moment. -/
  | changed (files : FileSystem)
  deriving DecidableEq, Repr

/-- The file system of a reported change. -/
def Signal.files? : Signal → Option FileSystem
  | .noted _ => none
  | .changed files => some files

namespace Loop

variable {α : Type}

/-- What a step tells the action. -/
def signal? (loop : Loop α) : Step → Option Signal
  | .receive event =>
    if loop.state.running && event.isRelevant loop.target then some (.noted event) else none
  | .tick => if (step loop.target loop.state .tick).2 then some (.changed loop.files) else none
  | .expire => none
  | .cancel => none

/-- One step of the machine, of which the action may be told. -/
def advance (action : Signal → α → α) (loop : Loop α) (s : Step) : Loop α :=
  let value :=
    match loop.signal? s with
    | some signal => action signal loop.value
    | none => loop.value
  { loop with state := (step loop.target loop.state s).1, value }

/-- News of the file system: the events of the watched directory reach the machine, and the
watcher goes where the directory goes. -/
def notice (action : Signal → α → α) (loop : Loop α) (news : News) : Loop α :=
  match loop.directory with
  | none => loop
  | some directory =>
    let events := news.events directory (Path.parent loop.target)
    let loop := (events.map Step.receive).foldl (advance action) loop
    { loop with directory := news.carry directory }

/-- A change is made and its news arrives. -/
def change (action : Signal → α → α) (loop : Loop α) (change : Change) : Loop α :=
  let (files, news) := loop.files.apply change
  news.foldl (notice action) { loop with files }

/-- Time passes until the timer has run out and its tick is taken. -/
def settle (action : Signal → α → α) (loop : Loop α) : Loop α :=
  (loop.advance action .expire).advance action .tick

/-- Watching is called off; a change not yet reported never will be. -/
def cancel (action : Signal → α → α) (loop : Loop α) : Loop α := loop.advance action .cancel

end Loop

end BraceBalance.Watch
