/-
  Byte streams as they are delivered: a finite script of reads.

  Each read brings some bytes, possibly none, and the script says how the stream ends.  The
  read that tells of the end may still bring bytes along.
-/
import BraceBalance.Fault

set_option autoImplicit false

namespace BraceBalance

/-- A scripted byte stream. -/
structure Source where
  /-- The reads before the end, in order; an empty one brings nothing. -/
  reads : List Bytes
  /-- What the read that tells of the end brings along. -/
  last : Bytes
  /-- The fault that ends the stream; `none` for its regular end. -/
  fault : Option ReadFault
  deriving DecidableEq, Repr

namespace Source

/-- A stream of the given reads that ends in a read of its own. -/
def ofReads (reads : List Bytes) (fault : Option ReadFault) : Source :=
  ⟨reads, [], fault⟩

/-- A stream of the given reads whose last one also tells of the end. -/
def ofReadsTogether (reads : List Bytes) (fault : Option ReadFault) : Source :=
  ⟨reads.dropLast, reads.getLast?.getD [], fault⟩

/-- The content of a regular file, delivered in one read. -/
def ofContent (content : Bytes) : Source := ofReads [content] none

/-- A stream that breaks at the first read. -/
def failing (fault : ReadFault) : Source := ofReads [] (some fault)

/-- Reads in a row that bring nothing before the stream counts as stuck. -/
def maxEmptyReads : Nat := 100

/-- The state of a stream between two reads. -/
inductive State where
  /-- More can be read. -/
  | running (rest : Source)
  /-- The stream has ended, regularly or with a fault. -/
  | ended (fault : Option ReadFault)
  deriving DecidableEq, Repr

/-- How many reads are still to be made. -/
def State.remaining : State → Nat
  | .running rest => rest.reads.length + 1
  | .ended _ => 0

/-- Reads until something comes, after `empty` reads in a row that brought nothing. -/
def pullAfter (source : Source) (empty : Nat) : List Bytes → Bytes × State
  | [] => (source.last, .ended source.fault)
  | [] :: reads =>
    if empty < maxEmptyReads then pullAfter source (empty + 1) reads
    else ([], .ended (some .noProgress))
  | (b :: bytes) :: reads => (b :: bytes, .running { source with reads })

/-- Reads until something comes: bytes, the end, or one empty read too many. -/
def pull (source : Source) : Bytes × State := source.pullAfter 0 source.reads

theorem pullAfter_remaining (source : Source) (empty : Nat) (reads : List Bytes) :
    (source.pullAfter empty reads).2.remaining < reads.length + 1 := by
  induction reads generalizing empty with
  | nil => simp [pullAfter, State.remaining]
  | cons read reads ih =>
    cases read with
    | nil =>
      simp only [pullAfter]
      split
      · have := ih (empty + 1)
        simp only [List.length_cons]
        omega
      · simp [State.remaining]
    | cons b bytes => simp [pullAfter, State.remaining]

/-- Pulling uses up a read. -/
theorem pull_remaining (source : Source) :
    source.pull.2.remaining < (State.running source).remaining :=
  pullAfter_remaining source 0 source.reads

end Source

end BraceBalance
