/-
  Byte strings and their reading as UTF-8.

  A byte string is cut into pieces: the encoded characters it holds, and the stray bytes
  that start no well-formed encoding.  A stray byte is a piece by itself and reading goes
  on right behind it.  What becomes of the stray bytes is decided by the reader of the
  pieces: the scanner drops them (`text`), a written document replaces them
  (`replacing`), a quoted text escapes them.
-/
set_option autoImplicit false

namespace BraceBalance

/-- Byte strings: file contents, path names and everything that is written. -/
abbrev Bytes := List UInt8

namespace Utf8

/-! ## Encoding -/

/-- The UTF-8 encoding of a text. -/
def encode (text : List Char) : Bytes := text.flatMap String.utf8EncodeChar

/-! ## Decoding one character -/

/-- Continuation bytes are `10xxxxxx`. -/
def isContinuation (b : UInt8) : Bool := 0x80 ≤ b && b ≤ 0xBF

/-- The six payload bits of a continuation byte. -/
def payload (b : UInt8) : Nat := b.toNat % 0x40

/-- The character of a two-byte encoding; a lead byte below `C2` would be overlong. -/
def pair? (a b : UInt8) : Option Char :=
  if 0xC2 ≤ a ∧ a ≤ 0xDF ∧ isContinuation b then
    some (Char.ofNat (a.toNat % 0x20 * 0x40 + payload b))
  else none

/-- The character of a three-byte encoding: at least U+0800 and no surrogate. -/
def triple? (a b c : UInt8) : Option Char :=
  let n := (a.toNat % 0x10 * 0x40 + payload b) * 0x40 + payload c
  if 0xE0 ≤ a ∧ a ≤ 0xEF ∧ isContinuation b ∧ isContinuation c ∧
      0x800 ≤ n ∧ ¬ (0xD800 ≤ n ∧ n ≤ 0xDFFF) then
    some (Char.ofNat n)
  else none

/-- The character of a four-byte encoding: from U+10000 to U+10FFFF. -/
def quad? (a b c d : UInt8) : Option Char :=
  let n := ((a.toNat % 0x08 * 0x40 + payload b) * 0x40 + payload c) * 0x40 + payload d
  if 0xF0 ≤ a ∧ a ≤ 0xF4 ∧ isContinuation b ∧ isContinuation c ∧ isContinuation d ∧
      0x10000 ≤ n ∧ n ≤ 0x10FFFF then
    some (Char.ofNat n)
  else none

/-- The character whose encoding starts the byte string, with the bytes behind it. -/
def first? : Bytes → Option (Char × Bytes)
  | [] => none
  | a :: rest =>
    if a < 0x80 then some (Char.ofNat a.toNat, rest)
    else if a < 0xE0 then
      match rest with
      | b :: rest => (pair? a b).map (·, rest)
      | _ => none
    else if a < 0xF0 then
      match rest with
      | b :: c :: rest => (triple? a b c).map (·, rest)
      | _ => none
    else
      match rest with
      | b :: c :: d :: rest => (quad? a b c d).map (·, rest)
      | _ => none

/-- Decoding a character consumes bytes. -/
theorem length_lt_of_first? {bytes rest : Bytes} {c : Char}
    (h : first? bytes = some (c, rest)) : rest.length < bytes.length := by
  unfold first? at h
  repeat' split at h
  all_goals first
    | (simp only [Option.map_eq_some_iff, Prod.mk.injEq] at h
       obtain ⟨_, _, _, rfl⟩ := h
       simp only [List.length_cons]
       omega)
    | (simp only [Option.some.injEq, Prod.mk.injEq] at h
       obtain ⟨_, rfl⟩ := h
       simp)
    | cases h

/-! ## Pieces -/

/-- A piece of a byte string under UTF-8. -/
inductive Piece where
  /-- A character in its well-formed encoding. -/
  | char (c : Char)
  /-- A byte that starts no well-formed encoding. -/
  | stray (b : UInt8)
  deriving DecidableEq, Repr

/-- The pieces of a byte string, behind those already found (latest first). -/
def piecesOnto (found : List Piece) (bytes : Bytes) : List Piece :=
  match bytes with
  | [] => found.reverse
  | b :: rest =>
    match _h : first? (b :: rest) with
    | some (c, behind) => piecesOnto (.char c :: found) behind
    | none => piecesOnto (.stray b :: found) rest
termination_by bytes.length
decreasing_by
  · exact length_lt_of_first? _h
  · simp

/-- The pieces of a byte string, in order. -/
def pieces (bytes : Bytes) : List Piece := piecesOnto [] bytes

/-- The character of a piece, if it is one. -/
def Piece.char? : Piece → Option Char
  | .char c => some c
  | .stray _ => none

/-- The character that stands for a piece in a document that must be well-formed. -/
def Piece.replaced : Piece → Char
  | .char c => c
  | .stray _ => '\uFFFD'

/-- The characters of a byte string; stray bytes are dropped one by one. -/
def text (bytes : Bytes) : List Char := (pieces bytes).filterMap Piece.char?

/-- The byte string without its stray bytes. -/
def valid (bytes : Bytes) : Bytes := encode (text bytes)

/-- The characters of a byte string, U+FFFD standing for each stray byte. -/
def replacing (bytes : Bytes) : List Char := (pieces bytes).map Piece.replaced

/-- The text of a byte string that is well-formed throughout. -/
def decode? (bytes : Bytes) : Option (List Char) := (pieces bytes).mapM Piece.char?

/-! ## Equations -/

theorem piecesOnto_eq (found : List Piece) (bytes : Bytes) :
    piecesOnto found bytes = found.reverse ++ pieces bytes := by
  unfold pieces
  induction hn : bytes.length using Nat.strongRecOn generalizing found bytes with
  | _ n ih =>
    subst hn
    cases bytes with
    | nil => simp [piecesOnto]
    | cons b rest =>
      rw [piecesOnto, piecesOnto]
      split
      · rename_i c behind h
        have hlt := length_lt_of_first? h
        rw [ih _ hlt (.char c :: found) behind rfl, ih _ hlt [.char c] behind rfl]
        simp
      · have hlt : rest.length < (b :: rest).length := by simp
        rw [ih _ hlt (.stray b :: found) rest rfl, ih _ hlt [.stray b] rest rfl]
        simp

@[simp] theorem pieces_nil : pieces [] = [] := by simp [pieces, piecesOnto]

/-- A byte string that starts with a character. -/
theorem pieces_of_first? {bytes rest : Bytes} {c : Char} (h : first? bytes = some (c, rest)) :
    pieces bytes = .char c :: pieces rest := by
  cases bytes with
  | nil => simp [first?] at h
  | cons b tail =>
    rw [pieces, piecesOnto]
    split
    · rename_i c' behind h'
      rw [h] at h'
      simp only [Option.some.injEq, Prod.mk.injEq] at h'
      obtain ⟨rfl, rfl⟩ := h'
      rw [piecesOnto_eq]
      rfl
    · rename_i h'
      rw [h] at h'
      cases h'

/-- A byte string that starts with a stray byte. -/
theorem pieces_cons_stray {b : UInt8} {rest : Bytes} (h : first? (b :: rest) = none) :
    pieces (b :: rest) = .stray b :: pieces rest := by
  rw [pieces, piecesOnto]
  split
  · rename_i h'
    rw [h] at h'
    cases h'
  · rw [piecesOnto_eq]
    rfl

end Utf8

/-- The bytes of a fixed text. -/
def Bytes.ofString (s : String) : Bytes := Utf8.encode s.toList

end BraceBalance
