/-
  Well-formed UTF-8, told by the ranges of its bytes, and what dropping stray bytes keeps.

  `WellFormed` mentions no code point: it says which bytes may follow each other.  Its
  sequences are the encodings of the characters (`sequence_iff`), so the second bytes that it
  rules out behind E0, ED, F0 and F4 are exactly those of overlong encodings, of surrogates and
  of numbers beyond U+10FFFF.  Dropping stray bytes leaves a well-formed text, and a byte
  string leaves a given text exactly if it is that text with stray bytes put between its
  characters (`padded_iff`).
-/
import BraceBalance.Proofs.LineText

set_option autoImplicit false

namespace BraceBalance.Utf8

/-! ## Well-formed byte strings -/

/-- The byte sequences of single characters, by the ranges of their bytes. -/
inductive Sequence : Bytes → Prop where
  | one {a : UInt8} : a < 0x80 → Sequence [a]
  /-- `C0` and `C1` would be overlong. -/
  | two {a b : UInt8} : 0xC2 ≤ a → a ≤ 0xDF → isContinuation b → Sequence [a, b]
  /-- Behind `E0` a low second byte would be overlong, behind `ED` a high one a surrogate. -/
  | three {a b c : UInt8} : 0xE0 ≤ a → a ≤ 0xEF → isContinuation b → isContinuation c →
      (a = 0xE0 → 0xA0 ≤ b) → (a = 0xED → b ≤ 0x9F) → Sequence [a, b, c]
  /-- Behind `F0` a low second byte would be overlong, behind `F4` a high one out of range. -/
  | four {a b c d : UInt8} : 0xF0 ≤ a → a ≤ 0xF4 → isContinuation b → isContinuation c →
      isContinuation d → (a = 0xF0 → 0x90 ≤ b) → (a = 0xF4 → b ≤ 0x8F) → Sequence [a, b, c, d]

/-- Well-formed UTF-8: sequences of characters behind each other. -/
inductive WellFormed : Bytes → Prop where
  | nil : WellFormed []
  | append {code rest : Bytes} : Sequence code → WellFormed rest → WellFormed (code ++ rest)

theorem exists_char_of_sequence {code : Bytes} (h : Sequence code) :
    ∃ c, code = String.utf8EncodeChar c := by
  -- By width, as the decoder goes: the bounds on the second byte are those that it puts on
  -- the number.
  cases h with
  | @one a ha =>
    have hlt : a.toNat < 0x80 := by simpa [UInt8.lt_iff_toNat_lt] using ha
    exact ⟨Char.ofNat a.toNat, (encodeChar_ofNat hlt).symm⟩
  | @two a b hlow hhigh hb =>
    have hpair : pair? a b = some _ := if_pos ⟨hlow, hhigh, hb⟩
    exact ⟨_, (pair?_eq_some_iff.mp hpair).2.2.symm⟩
  | @three a b c hlow hhigh hb hc hoverlong hsurrogate =>
    obtain ⟨char, htriple⟩ : ∃ char, triple? a b c = some char := by
      refine ⟨_, if_pos ⟨hlow, hhigh, hb, hc, ?_⟩⟩
      rw [isContinuation_iff] at hb hc
      simp only [UInt8.le_iff_toNat_le, ← UInt8.toNat_inj, UInt8.toNat_ofNat] at *
      unfold payload
      omega
    exact ⟨char, (triple?_eq_some_iff.mp htriple).2.2.symm⟩
  | @four a b c d hlow hhigh hb hc hd hoverlong hbeyond =>
    obtain ⟨char, hquad⟩ : ∃ char, quad? a b c d = some char := by
      refine ⟨_, if_pos ⟨hlow, hhigh, hb, hc, hd, ?_⟩⟩
      rw [isContinuation_iff] at hb hc hd
      simp only [UInt8.le_iff_toNat_le, ← UInt8.toNat_inj, UInt8.toNat_ofNat] at *
      unfold payload
      omega
    exact ⟨char, (quad?_eq_some_iff.mp hquad).2.symm⟩

theorem sequence_encodeChar (c : Char) : Sequence (String.utf8EncodeChar c) := by
  have hc := toNat_range c
  rcases Nat.lt_or_ge 0x7F c.toNat with h₁ | h₁
  · rcases Nat.lt_or_ge 0x7FF c.toNat with h₂ | h₂
    · rcases Nat.lt_or_ge 0xFFFF c.toNat with h₃ | h₃
      · rw [encodeChar_four h₃]
        apply Sequence.four
        all_goals
          simp only [isContinuation_iff, UInt8.le_iff_toNat_le, ← UInt8.toNat_inj,
            UInt8.toNat_ofNat, UInt8.toNat_ofNat']
          omega
      · rw [encodeChar_three h₂ h₃]
        apply Sequence.three
        all_goals
          simp only [isContinuation_iff, UInt8.le_iff_toNat_le, ← UInt8.toNat_inj,
            UInt8.toNat_ofNat, UInt8.toNat_ofNat']
          omega
    · rw [encodeChar_two h₁ h₂]
      apply Sequence.two
      all_goals
        simp only [isContinuation_iff, UInt8.le_iff_toNat_le, UInt8.toNat_ofNat,
          UInt8.toNat_ofNat']
        omega
  · rw [encodeChar_one h₁]
    apply Sequence.one
    simp only [UInt8.lt_iff_toNat_lt, UInt8.toNat_ofNat, UInt8.toNat_ofNat']
    omega

/-- The ranges admit exactly the encodings of the characters. -/
theorem sequence_iff {code : Bytes} :
    Sequence code ↔ ∃ c, code = String.utf8EncodeChar c := by
  constructor
  · exact exists_char_of_sequence
  · intro h
    obtain ⟨c, rfl⟩ := h
    exact sequence_encodeChar c

theorem wellFormed_encode (chars : List Char) : WellFormed (encode chars) := by
  induction chars with
  | nil => exact .nil
  | cons c chars ih => exact .append (sequence_encodeChar c) ih

theorem exists_chars_of_wellFormed {bytes : Bytes} (h : WellFormed bytes) :
    ∃ chars, bytes = encode chars := by
  induction h with
  | nil => exact ⟨[], rfl⟩
  | append hcode _ ih =>
    obtain ⟨c, rfl⟩ := sequence_iff.mp hcode
    obtain ⟨chars, rfl⟩ := ih
    exact ⟨c :: chars, rfl⟩

/-! ## Dropping stray bytes -/

@[simp] theorem valid_nil : valid [] = [] := by
  simp [valid, encode]

theorem valid_encodeChar_append (c : Char) (rest : Bytes) :
    valid (String.utf8EncodeChar c ++ rest) = String.utf8EncodeChar c ++ valid rest := by
  rw [valid, text_encodeChar_append]
  exact List.flatMap_cons

theorem valid_cons_stray {b : UInt8} {rest : Bytes} (h : first? (b :: rest) = none) :
    valid (b :: rest) = valid rest := by
  rw [valid, text_cons_stray h, valid]

theorem valid_of_wellFormed {bytes : Bytes} (h : WellFormed bytes) : valid bytes = bytes := by
  obtain ⟨chars, rfl⟩ := exists_chars_of_wellFormed h
  rw [valid, text_encode]

/-- Dropping takes bytes away and changes nothing else. -/
theorem valid_sublist (bytes : Bytes) : (valid bytes).Sublist bytes := by
  induction bytes using induct with
  | nil => simp
  | char c rest ih =>
    rw [valid_encodeChar_append]
    exact ih.append_left _
  | stray b rest hstray ih =>
    rw [valid_cons_stray hstray]
    exact ih.cons b

/-- All ASCII bytes are kept, in their order. -/
theorem filter_ascii_valid (bytes : Bytes) :
    (valid bytes).filter (· < 0x80) = bytes.filter (· < 0x80) := by
  induction bytes using induct with
  | nil => rw [valid_nil]
  | char c rest ih => rw [valid_encodeChar_append, List.filter_append, List.filter_append, ih]
  | stray b rest hstray ih =>
    have hb : ¬ b < 0x80 := by
      rw [UInt8.lt_iff_toNat_lt, Nat.not_lt]
      exact (stray_of_first?_eq_none hstray).1
    rw [valid_cons_stray hstray, ih, List.filter_cons_of_neg (by simpa using hb)]

theorem valid_append (left : Bytes) {right : Bytes} (hright : IsStart right) :
    valid (left ++ right) = valid left ++ valid right := by
  rw [valid, text_append left hright, encode_append, valid, valid]

/-- What is kept of a byte string is kept whatever follows it. -/
theorem valid_prefix (front back : Bytes) : valid front <+: valid (front ++ back) := by
  obtain ⟨more, hmore⟩ := text_prefix front back
  refine ⟨encode more, ?_⟩
  rw [valid, valid, ← hmore, encode_append]

/-- The lines that a reader hands out are the lines of its stream without stray bytes. -/
theorem map_encode_lines (source : Source) :
    (Reader.ofSource source).lines.1.map (fun line => encode line.text) =
      (Newline.bytes.lines source.content).map valid := by
  have htexts := congrArg (List.map encode) (LineText.map_text_lines source)
  rw [List.map_map, List.map_map] at htexts
  exact htexts

/-! ## Stray bytes between characters -/

/-- The second byte string is the first, well-formed one with a byte string that is dropped
as a whole put in front of each character and behind the last; each of them may be empty. -/
inductive Padded : Bytes → Bytes → Prop where
  | last {stray : Bytes} : valid stray = [] → Padded [] stray
  | char {stray code text bytes : Bytes} : valid stray = [] → Sequence code →
      Padded text bytes → Padded (code ++ text) (stray ++ (code ++ bytes))

/-- Where a character starts, a byte string may be cut. -/
theorem isStart_encodeChar_append (c : Char) (rest : Bytes) :
    IsStart (String.utf8EncodeChar c ++ rest) := by
  intro b hb
  obtain ⟨tail, htail⟩ := List.head?_eq_some_iff.mp hb
  have hsome := first?_encodeChar c rest
  rw [← Bool.not_eq_true]
  intro hcontinues
  rw [htail, first?_cons_continuation hcontinues] at hsome
  cases hsome

theorem Padded.valid_eq {text bytes : Bytes} (h : Padded text bytes) : valid bytes = text := by
  induction h with
  | last hstray => exact hstray
  | char hstray hcode _ ih =>
    obtain ⟨c, rfl⟩ := sequence_iff.mp hcode
    rw [valid_append _ (isStart_encodeChar_append c _), hstray, valid_encodeChar_append, ih,
      List.nil_append]

/-- One more stray byte in front joins the stray bytes that stand there. -/
theorem Padded.cons_stray {b : UInt8} {text bytes : Bytes} (h : Padded text bytes)
    (hb : first? (b :: bytes) = none) : Padded text (b :: bytes) := by
  cases h with
  | last hstray =>
    refine .last ?_
    rw [valid_cons_stray hb, hstray]
  | @char stray code text bytes hstray hcode h =>
    -- No character starts here with all that follows, so none does with `stray` alone.
    have hinside := (stray_of_first?_eq_none hb).2 stray.length
    rw [List.take_left] at hinside
    refine @Padded.char (b :: stray) code text bytes ?_ hcode h
    rw [valid_cons_stray hinside, hstray]

/-- Every byte string is its valid text with stray bytes between the characters. -/
theorem padded_valid (bytes : Bytes) : Padded (valid bytes) bytes := by
  induction bytes using induct with
  | nil =>
    rw [valid_nil]
    exact .last valid_nil
  | char c rest ih =>
    rw [valid_encodeChar_append]
    exact @Padded.char [] _ _ _ valid_nil (sequence_encodeChar c) ih
  | stray b rest hstray ih =>
    rw [valid_cons_stray hstray]
    exact ih.cons_stray hstray

theorem padded_iff {text bytes : Bytes} : Padded text bytes ↔ valid bytes = text := by
  constructor
  · exact Padded.valid_eq
  · intro h
    rw [← h]
    exact padded_valid bytes

-- Two dropped byte strings at one place may make a character.
example : valid [0xC3] = [] ∧ valid [0xA9] = [] ∧ valid ([0xC3] ++ [0xA9]) = [0xC3, 0xA9] := by
  decide +kernel

/-- The laws of dropping stray bytes, which is what the reader of a stream does to each line.
What is left is well-formed; of a well-formed text it is everything, and of any byte string a
subsequence with all its ASCII bytes.  A byte string cut before a byte that continues no
character leaves what its parts leave, and cut anywhere it leaves at least what its front
leaves.  A well-formed text is left by exactly the byte strings that put stray bytes, one
dropped byte string at a place, between its characters. -/
theorem valid_drops_stray_bytes (u v : Bytes) :
    (∀ source : Source, (Reader.ofSource source).lines.1.map (fun line => encode line.text) =
      (Newline.bytes.lines source.content).map valid) ∧
    WellFormed (valid u) ∧ (WellFormed u → valid u = u) ∧
    (valid u).Sublist u ∧ (valid u).filter (· < 0x80) = u.filter (· < 0x80) ∧
    (IsStart v → valid (u ++ v) = valid u ++ valid v) ∧
    valid u <+: valid (u ++ v) ∧
    (WellFormed u → ∀ bytes, Padded u bytes ↔ valid bytes = valid u) := by
  refine ⟨map_encode_lines, wellFormed_encode _, valid_of_wellFormed, valid_sublist u,
    filter_ascii_valid u, valid_append u, valid_prefix u v, ?_⟩
  intro hu bytes
  rw [valid_of_wellFormed hu]
  exact padded_iff

/-- A truncated character in front of a surrogate, and stray bytes at all three places of a
text of two characters. -/
theorem valid_drops_stray_bytes_truncated :
    let u : Bytes := [0x7B, 0xF0, 0x9F, 0x98]
    let v : Bytes := [0xED, 0xA0, 0x80, 0x7D]
    let text : Bytes := [0xC3, 0xA9, 0x7D]
    let bytes : Bytes := [0xFF, 0xC3, 0xA9, 0xE0, 0x80, 0x7D, 0xF4, 0x90]
    IsStart v ∧ valid (u ++ v) = valid u ++ valid v ∧ valid u ++ valid v = [0x7B, 0x7D] ∧
      WellFormed text ∧ valid text = text ∧ Padded text bytes ∧ valid bytes = valid text := by
  intro u v text bytes
  have hv : IsStart v := by
    intro b hb
    cases hb
    decide
  have hfront : Sequence [0xC3, 0xA9] := .two (by decide) (by decide) (by decide)
  have hback : Sequence [0x7D] := .one (by decide)
  have htext : WellFormed text := .append hfront (.append hback .nil)
  have hpadded : Padded text bytes :=
    @Padded.char [0xFF] _ _ _ (by decide +kernel) hfront
      (@Padded.char [0xE0, 0x80] _ _ [0xF4, 0x90] (by decide +kernel) hback
        (.last (by decide +kernel)))
  obtain ⟨-, -, -, -, -, hcut, -, -⟩ := valid_drops_stray_bytes u v
  obtain ⟨-, -, hkept, -, -, -, -, hpad⟩ := valid_drops_stray_bytes text []
  exact ⟨hv, hcut hv, by decide +kernel, htext, hkept htext, hpadded,
    (hpad htext bytes).mp hpadded⟩

end BraceBalance.Utf8
