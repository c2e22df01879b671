/-
  The position of a byte offset.

  A scan counts lines and columns while it reads: lines are cut, stray bytes dropped, and the
  characters that are left numbered.  `positionAt` says what position an offset of the raw
  bytes has, by counting the line terminators and the characters in front of it.  Going
  through the lines and going through the bytes meet the same braces at the same positions
  (`flatMap_braces_lines`), because braces and terminators are ASCII and no sequence of a
  longer character, complete or cut off, ever takes one in.
-/
import BraceBalance.Proofs.Concatenation
import BraceBalance.Proofs.LineText

set_option autoImplicit false

namespace BraceBalance

open Newline (bytes)

/-! ## Braces in bytes and in characters -/

/-- The byte of an opening brace. -/
def openByte : UInt8 := 0x7B

/-- The byte of a closing brace. -/
def closeByte : UInt8 := 0x7D

/-- The brace that a byte is. -/
def Brace.ofByte? (b : UInt8) : Option Brace :=
  if b = openByte then some .opening else if b = closeByte then some .closing else none

namespace Brace

theorem ofByte?_eq_none {b : UInt8} (hb : 0x80 ≤ b.toNat) : ofByte? b = none := by
  have hopen : b ≠ openByte := by
    rintro rfl
    exact absurd hb (by decide)
  have hclose : b ≠ closeByte := by
    rintro rfl
    exact absurd hb (by decide)
  rw [ofByte?, if_neg hopen, if_neg hclose]

theorem ofChar?_eq_none {c : Char} (hc : 0x7F < c.toNat) : ofChar? c = none := by
  have hopen : c ≠ '{' := by
    rintro rfl
    exact absurd hc (by decide)
  have hclose : c ≠ '}' := by
    rintro rfl
    exact absurd hc (by decide)
  rw [ofChar?, if_neg hopen, if_neg hclose]

/-- Braces are ASCII: the byte and the character are the same brace. -/
theorem ofByte?_ofNat {c : Char} (hc : c.toNat ≤ 0x7F) :
    ofByte? (UInt8.ofNat c.toNat) = ofChar? c := by
  have hsame : ∀ d : Char, d.toNat ≤ 0x7F →
      (UInt8.ofNat c.toNat = UInt8.ofNat d.toNat ↔ c = d) := by
    intro d hd
    rw [← UInt8.toNat_inj, UInt8.toNat_ofNat', UInt8.toNat_ofNat', ← Char.toNat_inj]
    omega
  have hopen : UInt8.ofNat c.toNat = openByte ↔ c = '{' := hsame '{' (by decide)
  have hclose : UInt8.ofNat c.toNat = closeByte ↔ c = '}' := hsame '}' (by decide)
  simp only [ofByte?, ofChar?, hopen, hclose]

end Brace

/-- The bytes of a character hold its brace, if it is one, in first place. -/
theorem placed_encodeChar {α : Type} (place : Nat → α) (c : Char) :
    placed Brace.ofByte? place 0 (String.utf8EncodeChar c) =
      ((Brace.ofChar? c).map (·, place 0)).toList := by
  rcases Nat.lt_or_ge 0x7F c.toNat with hbig | hsmall
  · rw [Brace.ofChar?_eq_none hbig,
      placed_eq_nil fun b hb => Brace.ofByte?_eq_none (Utf8.le_of_mem_encodeChar hbig hb)]
    rfl
  · rw [Utf8.encodeChar_one hsmall, placed_cons, Brace.ofByte?_ofNat hsmall, placed_nil,
      List.append_nil]

/-- Dropping stray bytes moves no brace: the braces of a decoded text stand at the columns
that the bytes before them give. -/
theorem placed_text {α : Type} (place : Nat → α) (line : Bytes) :
    placed Brace.ofChar? place 0 (Utf8.text line) =
      placed Brace.ofByte? (fun offset => place (Utf8.text (line.take offset)).length) 0 line := by
  induction line using Utf8.induct generalizing place with
  | nil => simp
  | char c rest ih =>
    have hcolumn : ∀ offset,
        (Utf8.text ((String.utf8EncodeChar c ++ rest).take
            (offset + (String.utf8EncodeChar c).length))).length =
          (Utf8.text (rest.take offset)).length + 1 := by
      intro offset
      rw [Nat.add_comm, List.take_length_add_append, Utf8.text_encodeChar_append]
      rfl
    rw [Utf8.text_encodeChar_append, placed_cons, placed_add, ih, placed_append,
      placed_encodeChar, placed_add]
    simp only [hcolumn, List.take_zero, Utf8.text_nil, List.length_nil]
  | stray b rest hstray ih =>
    obtain ⟨hbig, hshorter⟩ := Utf8.stray_of_first?_eq_none hstray
    rw [Utf8.text_cons_stray hstray, ih, placed_cons, Brace.ofByte?_eq_none hbig, placed_add]
    simp only [List.take_succ_cons, Utf8.text_cons_stray (hshorter _)]
    rfl

/-! ## The position of an offset -/

/-- Whether a line terminator ends right before an offset: an LF, or a CR that no LF
follows. -/
def endsLineBefore (content : Bytes) : Nat → Bool
  | 0 => false
  | last + 1 =>
    content[last]? = some lf || (content[last]? = some cr && content[last + 1]? ≠ some lf)

/-- The ends of the line terminators that end at or before an offset, in order. -/
def lineEnds (content : Bytes) (offset : Nat) : List Nat :=
  (List.range (offset + 1)).filter (endsLineBefore content)

/-- Where the line of an offset starts: at the end of the last terminator before it. -/
def lineStart (content : Bytes) (offset : Nat) : Nat := (lineEnds content offset).getLastD 0

/-- The position of an offset: its line is one more than the terminators before it, and its
column counts the characters since the last one, stray bytes apart. -/
def positionAt (content : Bytes) (offset : Nat) : Position where
  line := 1 + (lineEnds content offset).length
  column := (Utf8.text ((content.take offset).drop (lineStart content offset))).length

theorem endsLineBefore_inner {front : Bytes} (hfront : bytes.Inner front) (rest : Bytes)
    {offset : Nat} (hoffset : offset ≤ front.length) :
    endsLineBefore (front ++ rest) offset = false := by
  cases offset with
  | zero => rfl
  | succ last =>
    obtain ⟨b, hb⟩ : ∃ b, front[last]? = some b := ⟨_, List.getElem?_eq_getElem hoffset⟩
    obtain ⟨hcr, hlf⟩ : b ≠ cr ∧ b ≠ lf := hfront b (List.mem_of_getElem? hb)
    have hget : (front ++ rest)[last]? = some b := by
      rw [List.getElem?_append_left hoffset, hb]
    simp [endsLineBefore, hget, hcr, hlf]

/-- In front of the first terminator, the line is the first and the column counts all
characters. -/
theorem positionAt_inner {line : Bytes} (hline : bytes.Inner line) (rest : Bytes)
    {offset : Nat} (hoffset : offset ≤ line.length) :
    positionAt (line ++ rest) offset = ⟨1, (Utf8.text (line.take offset)).length⟩ := by
  have hends : lineEnds (line ++ rest) offset = [] := by
    rw [lineEnds, List.filter_eq_nil_iff]
    intro index hindex
    rw [endsLineBefore_inner hline rest (by rw [List.mem_range] at hindex; omega)]
    exact Bool.false_ne_true
  simp only [positionAt, lineStart, hends, List.length_nil, List.getLastD_nil, List.drop_zero,
    List.take_append_of_le_length hoffset]
  rfl

/-- The first terminator of a text ends where it ends, and not in its middle. -/
theorem endsLineBefore_terminated {line rest : Bytes} {terminator : Terminator}
    (hline : bytes.Inner line) (hcomplete : bytes.Complete terminator rest) {offset : Nat}
    (hoffset : offset ≤ line.length + (bytes.chars terminator).length) :
    endsLineBefore (line ++ (bytes.chars terminator ++ rest)) offset =
      decide (offset = line.length + (bytes.chars terminator).length) := by
  have hpos : 0 < (bytes.chars terminator).length :=
    List.length_pos_iff.mpr (Newline.chars_ne_nil terminator)
  rcases Nat.lt_or_ge line.length offset with hlt | hge
  · have hget : ∀ index, (line ++ (bytes.chars terminator ++ rest))[line.length + index]? =
        (bytes.chars terminator ++ rest)[index]? := by
      intro index
      rw [List.getElem?_append_right (by omega), Nat.add_sub_cancel_left]
    obtain ⟨behind, rfl⟩ : ∃ behind, offset = line.length + behind + 1 :=
      ⟨offset - line.length - 1, by omega⟩
    simp only [endsLineBefore, hget, Nat.add_assoc]
    have hne : cr ≠ lf := bytes.cr_ne_lf
    cases terminator with
    | lf =>
      have hzero : behind = 0 := by
        simp only [Newline.chars, List.length_singleton] at hoffset
        omega
      simp [hzero, Newline.chars, bytes]
    | crlf =>
      have hcases : behind = 0 ∨ behind = 1 := by
        simp only [Newline.chars, List.length_cons, List.length_nil] at hoffset
        omega
      rcases hcases with rfl | rfl
      · simp [Newline.chars, bytes, hne]
      · simp [Newline.chars, bytes]
    | cr =>
      have hzero : behind = 0 := by
        simp only [Newline.chars, List.length_singleton] at hoffset
        omega
      have hhead : rest[0]? ≠ some lf := by
        rw [← List.head?_eq_getElem?]
        exact hcomplete rfl
      simp [hzero, Newline.chars, bytes, hne, hhead]
  · rw [endsLineBefore_inner hline _ hge, eq_comm, decide_eq_false_iff_not]
    omega

theorem endsLineBefore_add (left rest : Bytes) (offset : Nat) :
    endsLineBefore (left ++ rest) (left.length + offset + 1) =
      endsLineBefore rest (offset + 1) := by
  have hget : ∀ index, (left ++ rest)[left.length + index]? = rest[index]? := by
    intro index
    rw [List.getElem?_append_right (by omega), Nat.add_sub_cancel_left]
  simp only [endsLineBefore, hget, Nat.add_assoc]

/-- Behind the first terminator, its end comes first and the rest is as in the rest. -/
theorem lineEnds_terminated {line rest : Bytes} {terminator : Terminator}
    (hline : bytes.Inner line) (hcomplete : bytes.Complete terminator rest) (offset : Nat) :
    let width := (line ++ bytes.chars terminator).length
    lineEnds (line ++ (bytes.chars terminator ++ rest)) (width + offset) =
      width :: (lineEnds rest offset).map (width + ·) := by
  intro width
  have hwidth : width = line.length + (bytes.chars terminator).length := List.length_append
  have hbefore : (List.range width).filter
      (endsLineBefore (line ++ (bytes.chars terminator ++ rest))) = [] := by
    rw [List.filter_eq_nil_iff]
    intro index hindex
    rw [List.mem_range] at hindex
    rw [endsLineBefore_terminated hline hcomplete (by omega), decide_eq_true_iff]
    omega
  have hat : endsLineBefore (line ++ (bytes.chars terminator ++ rest)) width = true := by
    rw [endsLineBefore_terminated hline hcomplete (by omega), decide_eq_true_iff]
    exact hwidth
  have hbehind : ∀ index, endsLineBefore (line ++ (bytes.chars terminator ++ rest))
      (width + (index + 1)) = endsLineBefore rest (index + 1) := by
    intro index
    rw [← List.append_assoc]
    exact endsLineBefore_add (line ++ bytes.chars terminator) rest index
  rw [lineEnds, lineEnds, Nat.add_assoc, List.range_add, List.filter_append, hbefore,
    List.nil_append, List.range_succ_eq_map, List.map_cons, Nat.add_zero,
    List.filter_cons_of_pos hat, List.filter_cons_of_neg (by exact Bool.false_ne_true)]
  simp only [List.filter_map, List.map_map, Function.comp_def, Nat.succ_eq_add_one, hbehind]

/-- Behind the first terminator, everything is one line further down. -/
theorem positionAt_terminated {line rest : Bytes} {terminator : Terminator}
    (hline : bytes.Inner line) (hcomplete : bytes.Complete terminator rest) (offset : Nat) :
    positionAt (line ++ (bytes.chars terminator ++ rest))
        ((line ++ bytes.chars terminator).length + offset) =
      (positionAt rest offset).shift 1 := by
  have hends := lineEnds_terminated hline hcomplete offset
  have hstart : lineStart (line ++ (bytes.chars terminator ++ rest))
      ((line ++ bytes.chars terminator).length + offset) =
      (line ++ bytes.chars terminator).length + lineStart rest offset := by
    rw [lineStart, hends, List.getLastD_cons, lineStart]
    exact List.getLastD_map (a := 0)
  have hslice : ((line ++ (bytes.chars terminator ++ rest)).take
        ((line ++ bytes.chars terminator).length + offset)).drop
        ((line ++ bytes.chars terminator).length + lineStart rest offset) =
      (rest.take offset).drop (lineStart rest offset) := by
    rw [← List.append_assoc, List.take_length_add_append, List.drop_length_add_append]
  simp only [positionAt, Position.shift, hstart, hslice, hends, List.length_cons,
    List.length_map, Position.mk.injEq, and_true]
  omega

/-! ## Lines and offsets agree -/

theorem placed_chars {α : Type} (place : Nat → α) (start : Nat) (terminator : Terminator) :
    placed Brace.ofByte? place start (bytes.chars terminator) = [] := by
  apply placed_eq_nil
  intro b hb
  have hb : b = cr ∨ b = lf := by
    cases terminator with
    | lf => exact Or.inr (List.mem_singleton.mp hb)
    | crlf => simpa [Newline.chars, bytes] using hb
    | cr => exact Or.inl (List.mem_singleton.mp hb)
  rcases hb with rfl | rfl <;> rfl

/-- The braces of all lines are the braces of all bytes, each at the position of its
offset. -/
theorem flatMap_braces_lines (content : Bytes) :
    (Reader.numbered 1 (bytes.lines content)).flatMap Line.braces =
      placed Brace.ofByte? (positionAt content) 0 content := by
  have hinner : ∀ line : Bytes, bytes.Inner line → ∀ rest,
      placed Brace.ofChar? (fun column => (⟨1, column⟩ : Position)) 0 (Utf8.text line) =
        placed Brace.ofByte? (positionAt (line ++ rest)) 0 line := by
    intro line hline rest
    rw [placed_text]
    apply placed_congr
    intro offset _ hoffset
    rw [positionAt_inner hline rest (by omega)]
  induction content using bytes.induct with
  | rest content hcontent =>
    cases content with
    | nil => rfl
    | cons b content =>
      have hline := hinner (b :: content) hcontent []
      rw [List.append_nil] at hline
      rw [Newline.lines_inner hcontent (List.cons_ne_nil b content), ← hline]
      simp [Line.braces]
  | line line terminator rest hline hcomplete ih =>
    have hlf : placed Brace.ofChar? (fun column => (⟨1, column⟩ : Position))
        (0 + (Utf8.text line).length) ['\n'] = [] := by
      apply placed_eq_nil
      intro c hc
      rw [List.mem_singleton.mp hc]
      rfl
    have hfirst : Line.braces ⟨1, Utf8.text (line ++ [lf])⟩ =
        placed Brace.ofByte? (positionAt (line ++ (bytes.chars terminator ++ rest))) 0 line := by
      unfold Line.braces
      rw [Utf8.text_line, placed_append, ← hinner line hline]
      exact (congrArg _ hlf).trans (List.append_nil _)
    have hrest : placed Brace.ofByte? (positionAt (line ++ (bytes.chars terminator ++ rest)))
        (0 + (line ++ bytes.chars terminator).length) rest =
        placed Brace.ofByte? (fun offset => (positionAt rest offset).shift 1) 0 rest := by
      rw [placed_add]
      apply placed_congr
      intro offset _ _
      rw [Nat.add_comm, positionAt_terminated hline hcomplete]
    rw [Newline.lines_terminated hline hcomplete, Reader.numbered_cons, List.flatMap_cons,
      Line.flatMap_braces_add 1 1, ih, map_placed, ← hrest, placed_append _ 0 line,
      placed_append _ _ (bytes.chars terminator), placed_chars, List.nil_append,
      List.length_append, ← Nat.add_assoc]
    exact congrArg (· ++ _) hfirst

end BraceBalance
