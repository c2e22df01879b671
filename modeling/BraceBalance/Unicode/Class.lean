/-
  The character classes of the scanner: word characters and blanks decide where a
  declaration stands, printable characters decide what a quoted text shows as it is.
-/
import BraceBalance.Unicode.Letter
import BraceBalance.Unicode.Mark
import BraceBalance.Unicode.Number
import BraceBalance.Unicode.Punctuation
import BraceBalance.Unicode.Symbol

set_option autoImplicit false

namespace BraceBalance.Unicode

/-- Membership in a table of inclusive ranges in increasing order.  The search stops at
the first range that begins beyond the code point. -/
def inRanges (n : Nat) : List (Nat × Nat) → Bool
  | [] => false
  | (lo, hi) :: rest => if n < lo then false else if n ≤ hi then true else inRanges n rest

/-- Letters, general category L. -/
def isLetter (c : Char) : Bool := inRanges c.toNat letterRanges

/-- Numbers, general category N. -/
def isNumber (c : Char) : Bool := inRanges c.toNat numberRanges

/-- Word characters: letters, numbers and the underscore. -/
def isWord (c : Char) : Bool := c = '_' || isLetter c || isNumber c

/-- The blank code points: the white space of Unicode and the four information separators
U+001C to U+001F. -/
def blankRanges : List (Nat × Nat) := [
  (0x09, 0x0D), (0x1C, 0x20), (0x85, 0x85), (0xA0, 0xA0), (0x1680, 0x1680), (0x2000, 0x200A),
  (0x2028, 0x2029), (0x202F, 0x202F), (0x205F, 0x205F), (0x3000, 0x3000)]

/-- Blanks separate the words of a declaration; line terminators are among them. -/
def isBlank (c : Char) : Bool := inRanges c.toNat blankRanges

/-- Characters that a quoted text shows as they are: letters, marks, numbers, punctuation,
symbols, and of the blanks only U+0020. -/
def isPrintable (c : Char) : Bool :=
  c = ' ' || isLetter c || inRanges c.toNat markRanges || isNumber c ||
    inRanges c.toNat punctuationRanges || inRanges c.toNat symbolRanges

/-- A code point belongs to a table exactly when one of its ranges holds it, provided the
ranges are in increasing order. -/
theorem inRanges_eq_true_iff {n : Nat} {ranges : List (Nat × Nat)}
    (ordered : ranges.Pairwise fun a b => a.1 ≤ b.1) :
    inRanges n ranges = true ↔ ∃ r ∈ ranges, r.1 ≤ n ∧ n ≤ r.2 := by
  induction ranges with
  | nil => simp [inRanges]
  | cons r rest ih =>
    obtain ⟨lo, hi⟩ := r
    rw [List.pairwise_cons] at ordered
    simp only [inRanges, List.mem_cons, exists_eq_or_imp]
    split
    · rename_i hlo
      simp only [Bool.false_eq_true, false_iff, not_or, not_exists, not_and]
      refine ⟨by omega, fun x hx hle => ?_⟩
      have := ordered.1 x hx
      simp only at this
      omega
    · split
      · simp only [true_iff]
        exact .inl ⟨by omega, by omega⟩
      · rw [ih ordered.2]
        constructor
        · exact .inr
        · rintro (h | h)
          · omega
          · exact h

end BraceBalance.Unicode
