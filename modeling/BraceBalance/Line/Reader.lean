/-
  Reading a stream line by line.

  The reader holds the bytes that were delivered and not yet handed out.  It cuts the next
  line off them, and reads on only while they hold no complete line.  When the stream ends,
  regularly or not, what is in hand is still handed out as lines; only then does the reader
  stop, and a fault of the stream is told.
-/
import BraceBalance.Line.Cut
import BraceBalance.Line.Source

set_option autoImplicit false

namespace BraceBalance

/-- A line of the stream: its number, counted from 1, and its characters with the
terminator, if it has one, as a final LF. -/
structure Line where
  number : Nat
  text : List Char
  deriving DecidableEq, Repr, Inhabited

/-- A stream that is read line by line. -/
structure Reader where
  /-- The bytes delivered and not yet handed out. -/
  buffer : Bytes
  /-- What is still to come. -/
  input : Source.State
  /-- The line handed out last; number 0 and no text before the first. -/
  current : Line
  deriving DecidableEq, Repr

namespace Reader

/-- A reader at the start of a stream. -/
def ofSource (source : Source) : Reader := ⟨[], .running source, ⟨0, []⟩⟩

/-- Whether no more bytes will come. -/
def atEnd (reader : Reader) : Bool :=
  match reader.input with
  | .running _ => false
  | .ended _ => true

/-- The fault that ended the stream, if there was one. -/
def fault (reader : Reader) : Option ReadFault :=
  match reader.input with
  | .running _ => none
  | .ended fault => fault

/-- Hands out a line that was cut off the bytes in hand. -/
def deliver (reader : Reader) (cut : Cut) : Reader :=
  { reader with
    buffer := reader.buffer.drop cut.width
    current := ⟨reader.current.number + 1, Utf8.text cut.line⟩ }

/-- Moves to the next line and tells whether there was one.  Behind the last line the
current line stays what it was. -/
def advance (reader : Reader) : Bool × Reader :=
  match Cut.first? reader.buffer reader.atEnd with
  | some cut => (true, reader.deliver cut)
  | none =>
    match _h : reader.input with
    | .ended _ => (false, { reader with buffer := [] })
    | .running source =>
      let delivery := source.pull
      advance { reader with buffer := reader.buffer ++ delivery.1, input := delivery.2 }
termination_by reader.input.remaining
decreasing_by
  simp only [_h]
  exact Source.pull_remaining source

/-! ## Reading to the end -/

/-- The bytes that a stream in a given state will still deliver. -/
def undelivered : Source.State → Nat
  | .running rest => rest.reads.flatten.length + rest.last.length
  | .ended _ => 0

/-- The bytes that are not yet handed out. -/
def pending (reader : Reader) : Nat := reader.buffer.length + undelivered reader.input

theorem pullAfter_undelivered (source : Source) (empty : Nat) (reads : List Bytes) :
    (source.pullAfter empty reads).1.length +
        undelivered (source.pullAfter empty reads).2 ≤
      reads.flatten.length + source.last.length := by
  induction reads generalizing empty with
  | nil => simp [Source.pullAfter, undelivered]
  | cons read reads ih =>
    cases read with
    | nil =>
      simp only [Source.pullAfter]
      split
      · simpa using ih (empty + 1)
      · simp [undelivered]
    | cons b bytes =>
      simp [Source.pullAfter, undelivered]
      omega

/-- Reading on brings no more than what was still to come. -/
theorem undelivered_pull (source : Source) :
    source.pull.1.length + undelivered source.pull.2 ≤ undelivered (.running source) :=
  pullAfter_undelivered source 0 source.reads

/-- Each line handed out uses up bytes. -/
theorem pending_of_advance {reader next : Reader} (h : reader.advance = (true, next)) :
    next.pending < reader.pending := by
  induction hn : reader.input.remaining using Nat.strongRecOn generalizing reader with
  | _ n ih =>
    subst hn
    rw [advance] at h
    split at h
    · rename_i cut hcut
      have hwidth := Cut.width_of_first? hcut
      simp only [Prod.mk.injEq, true_and] at h
      subst h
      simp only [pending, deliver, List.length_drop]
      omega
    · split at h
      · simp at h
      · rename_i source hinput
        have hremaining := Source.pull_remaining source
        have hlt := ih _ (by simpa [hinput] using hremaining) h rfl
        have hbytes := undelivered_pull source
        simp only [pending, List.length_append, hinput] at hlt ⊢
        omega

/-- Reads all remaining lines, behind those already read (latest first). -/
def linesOnto (read : List Line) (reader : Reader) : List Line × Reader :=
  match _h : reader.advance with
  | (true, next) => linesOnto (next.current :: read) next
  | (false, next) => (read.reverse, next)
termination_by reader.pending
decreasing_by exact pending_of_advance _h

/-- All remaining lines, and the reader behind the last one. -/
def lines (reader : Reader) : List Line × Reader := linesOnto [] reader

end Reader

end BraceBalance
