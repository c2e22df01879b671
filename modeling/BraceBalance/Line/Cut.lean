/-
  Universal newlines: where the first line of the bytes in hand ends.

  A line ends with LF, with CR LF or with a lone CR, and whichever it is, the line that is
  cut off ends with LF.  A CR in last place may still turn out to be the first half of a
  CR LF, so nothing is cut there until it is known that the data ends.
-/
import BraceBalance.Text.Utf8

set_option autoImplicit false

namespace BraceBalance

/-- Line feed. -/
def lf : UInt8 := 0x0A

/-- Carriage return. -/
def cr : UInt8 := 0x0D

/-- A line cut off the front of the bytes in hand. -/
structure Cut where
  /-- How many bytes in hand the line used up, terminator included. -/
  width : Nat
  /-- The bytes of the line; its terminator, if it has one, is a single LF. -/
  line : Bytes
  deriving DecidableEq, Repr

namespace Cut

/-- Bytes that do not end a line. -/
def isInner (b : UInt8) : Bool := b != lf && b != cr

/-- The first line of the bytes in hand, or `none` if more bytes are needed to tell.
`atEnd` says that no more bytes will come: then whatever is left is a line. -/
def first? (data : Bytes) (atEnd : Bool) : Option Cut :=
  let inner := data.takeWhile isInner
  match data.dropWhile isInner with
  | [] => if atEnd && !data.isEmpty then some ⟨data.length, data⟩ else none
  | b :: rest =>
    if b = lf then some ⟨inner.length + 1, inner ++ [lf]⟩
    else
      match rest with
      | [] => if atEnd then some ⟨inner.length + 1, inner ++ [lf]⟩ else none
      | next :: _ =>
        if next = lf then some ⟨inner.length + 2, inner ++ [lf]⟩
        else some ⟨inner.length + 1, inner ++ [lf]⟩

/-- A cut uses up at least one byte, and no more than there are. -/
theorem width_of_first? {data : Bytes} {atEnd : Bool} {cut : Cut}
    (h : first? data atEnd = some cut) : 0 < cut.width ∧ cut.width ≤ data.length := by
  have hlen : (data.takeWhile isInner).length + (data.dropWhile isInner).length = data.length := by
    rw [← List.length_append, List.takeWhile_append_dropWhile]
  unfold first? at h
  simp only at h
  split at h
  · split at h
    · rename_i hd
      simp only [Bool.and_eq_true, Bool.not_eq_true', List.isEmpty_eq_false_iff] at hd
      simp only [Option.some.injEq] at h
      subst h
      exact ⟨List.length_pos_iff.mpr hd.2, Nat.le_refl _⟩
    · cases h
  · rename_i b rest hdrop
    rw [hdrop] at hlen
    simp only [List.length_cons] at hlen
    split at h
    · simp only [Option.some.injEq] at h
      subst h
      simp only
      omega
    · split at h
      · split at h
        · simp only [Option.some.injEq] at h
          subst h
          simp only
          omega
        · cases h
      · simp only [List.length_cons] at hlen
        split at h
        all_goals
          simp only [Option.some.injEq] at h
          subst h
          simp only
          omega

end Cut

end BraceBalance
