/-
  Where output goes.  A sink takes whole writes; it may refuse every write after a number
  of them, with a fault of its own, and a refused write leaves nothing behind.
-/
import BraceBalance.Fault

set_option autoImplicit false

namespace BraceBalance

/-- What a sink takes before it refuses. -/
structure Allowance where
  /-- How many more writes succeed. -/
  writes : Nat
  /-- What every write behind them fails with. -/
  fault : WriteFault
  deriving DecidableEq, Repr

/-- A sink for output. -/
structure Sink where
  /-- How many more writes succeed, and how the others fail; `none` if all succeed. -/
  allowance : Option Allowance
  /-- The writes that succeeded, in order. -/
  accepted : Array Bytes
  /-- How many writes were tried. -/
  attempts : Nat
  deriving DecidableEq, Repr

namespace Sink

/-- An unused sink. -/
def empty (allowance : Option Allowance) : Sink := ⟨allowance, #[], 0⟩

/-- A sink that takes every write. -/
def unbounded : Sink := empty none

/-- Tries a write and tells the fault if it was refused. -/
def write (sink : Sink) (bytes : Bytes) : Sink × Option WriteFault :=
  match sink.allowance with
  | some ⟨0, fault⟩ => ({ sink with attempts := sink.attempts + 1 }, some fault)
  | some ⟨n + 1, fault⟩ =>
    (⟨some ⟨n, fault⟩, sink.accepted.push bytes, sink.attempts + 1⟩, none)
  | none => (⟨none, sink.accepted.push bytes, sink.attempts + 1⟩, none)

/-- Everything that was written. -/
def contents (sink : Sink) : Bytes := sink.accepted.toList.flatten

/-- Tries writes one by one up to the first that is refused, and tells the fault of that one. -/
def writeAll (sink : Sink) : List Bytes → Sink × Option WriteFault
  | [] => (sink, none)
  | bytes :: rest =>
    match sink.write bytes with
    | (sink, none) => sink.writeAll rest
    | (sink, some fault) => (sink, some fault)

end Sink

end BraceBalance
