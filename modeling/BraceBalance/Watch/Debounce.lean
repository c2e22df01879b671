/-
  Watching one file for changes, as a machine that takes one step at a time.

  A relevant event starts the timer anew, and the change is reported when the timer has run
  out, so a burst of events is reported once.  The timer leaves a tick when it runs out, and
  the machine takes the tick at a later step; an event in between takes the waiting tick back.
-/
import BraceBalance.Watch.Event

set_option autoImplicit false

namespace BraceBalance

namespace Watch

/-- The state of the machine. -/
structure State where
  /-- A relevant event has come and is not yet reported. -/
  pending : Bool
  /-- The timer is running. -/
  armed : Bool
  /-- The timer has run out and its tick is not yet taken. -/
  ticked : Bool
  /-- Watching has not been called off. -/
  running : Bool
  deriving DecidableEq, Repr

namespace State

/-- Nothing has happened yet. -/
def start : State := ⟨false, false, false, true⟩

/-- Stops the timer; if it had run out, its tick is taken back. -/
def stopTimer (state : State) : State :=
  if state.armed then { state with armed := false } else { state with ticked := false }

/-- Starts the timer for a relevant event. -/
def note (state : State) : State :=
  let state := if state.pending then state.stopTimer else state
  { state with pending := true, armed := true }

end State

/-- What can happen to the machine. -/
inductive Step where
  /-- An event arrives. -/
  | receive (event : Event)
  /-- The timer, if it runs, runs out. -/
  | expire
  /-- The waiting tick, if there is one, is taken. -/
  | tick
  /-- Watching is called off. -/
  | cancel
  deriving DecidableEq, Repr

/-- One step; the second component tells whether a change is reported. -/
def step (target : Bytes) (state : State) : Step → State × Bool
  | .receive event =>
    if state.running && event.isRelevant target then (state.note, false) else (state, false)
  | .expire =>
    if state.armed then ({ state with armed := false, ticked := true }, false) else (state, false)
  | .tick =>
    if state.running && state.ticked then
      ({ state with ticked := false, pending := false }, state.pending)
    else (state, false)
  | .cancel => ({ state with running := false }, false)

/-- Steps one after the other; the second component counts the reported changes. -/
def steps (target : Bytes) (state : State) (list : List Step) : State × Nat :=
  list.foldl
    (fun (state, calls) s =>
      let (state, called) := step target state s
      (state, if called then calls + 1 else calls))
    (state, 0)

end Watch

end BraceBalance
