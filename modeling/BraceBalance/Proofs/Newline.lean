/-
  Universal newlines, said once for every alphabet.

  `Newline.lines` is the one-shot reading of a whole text: it looks at each character once,
  knows nothing of buffers, and is the yardstick for everything that cuts lines.  A text is
  either a rest without terminator, or a line, its terminator and more text; `Newline.induct`
  says that these two forms are all there are, and every fact about lines is proved along
  them.  `Cut.first?`, which works on the bytes in hand, is tied to `lines` at the end.
-/
import BraceBalance.Line.Cut

set_option autoImplicit false

namespace BraceBalance

/-- The two characters of an alphabet that end lines. -/
structure Newline (α : Type) where
  cr : α
  lf : α
  cr_ne_lf : cr ≠ lf

/-- How a line ends. -/
inductive Terminator where
  | lf
  | crlf
  | cr
  deriving DecidableEq, Repr

namespace Newline

/-- The newlines of byte strings. -/
def bytes : Newline UInt8 := ⟨BraceBalance.cr, BraceBalance.lf, by decide⟩

variable {α : Type} (newline : Newline α)

/-- The characters of a terminator. -/
def chars : Terminator → List α
  | .lf => [newline.lf]
  | .crlf => [newline.cr, newline.lf]
  | .cr => [newline.cr]

/-- Text that ends no line. -/
def Inner (text : List α) : Prop := ∀ x ∈ text, x ≠ newline.cr ∧ x ≠ newline.lf

/-- A terminator is complete in front of a text: it is not the first half of a longer one. -/
def Complete (terminator : Terminator) (rest : List α) : Prop :=
  terminator = .cr → rest.head? ≠ some newline.lf

variable {newline}

theorem chars_ne_nil (terminator : Terminator) : newline.chars terminator ≠ [] := by
  cases terminator <;> simp [chars]

theorem inner_nil : newline.Inner [] := by simp [Inner]

theorem inner_cons {x : α} {text : List α} :
    newline.Inner (x :: text) ↔ (x ≠ newline.cr ∧ x ≠ newline.lf) ∧ newline.Inner text := by
  simp [Inner]

/-- A complete terminator stays so when more follows, unless it is a CR with nothing behind. -/
theorem Complete.append {terminator : Terminator} {rest : List α}
    (h : newline.Complete terminator rest) (hlast : ¬ (terminator = .cr ∧ rest = []))
    (more : List α) : newline.Complete terminator (rest ++ more) := by
  intro hcr
  cases rest with
  | nil => exact absurd ⟨hcr, rfl⟩ hlast
  | cons x rest => exact h hcr

variable [DecidableEq α]

/-- The lines of a text.  It is cut after each LF, CR LF and lone CR; each of these is
written as one LF, and a non-empty rest without terminator is the last line. -/
def lines (newline : Newline α) : List α → List (List α)
  | [] => []
  | x :: rest =>
    if x = newline.lf then [newline.lf] :: lines newline rest
    else if x = newline.cr then
      -- A CR right before an LF belongs to the terminator that the LF closes.
      if rest.head? = some newline.lf then lines newline rest
      else [newline.lf] :: lines newline rest
    else
      match lines newline rest with
      | [] => [[x]]
      | line :: more => (x :: line) :: more

/-! ## The two forms of a text -/

theorem lines_cons_inner {x : α} (hx : x ≠ newline.cr ∧ x ≠ newline.lf) (rest : List α) :
    newline.lines (x :: rest) =
      match newline.lines rest with
      | [] => [[x]]
      | line :: more => (x :: line) :: more := by
  rw [lines, if_neg hx.2, if_neg hx.1]

theorem lines_inner {line : List α} (hline : newline.Inner line) (hne : line ≠ []) :
    newline.lines line = [line] := by
  induction line with
  | nil => exact absurd rfl hne
  | cons x line ih =>
    obtain ⟨hx, hline⟩ := inner_cons.mp hline
    rw [lines_cons_inner hx]
    cases line with
    | nil => rfl
    | cons y line => rw [ih hline (List.cons_ne_nil y line)]

/-- Text that ends no line joins the first line behind it. -/
theorem lines_inner_append {front rest line : List α} {more : List (List α)}
    (hfront : newline.Inner front) (hrest : newline.lines rest = line :: more) :
    newline.lines (front ++ rest) = (front ++ line) :: more := by
  induction front with
  | nil => exact hrest
  | cons x front ih =>
    obtain ⟨hx, hfront⟩ := inner_cons.mp hfront
    rw [List.cons_append, lines_cons_inner hx, ih hfront]
    rfl

theorem lines_chars_append {terminator : Terminator} {rest : List α}
    (hcomplete : newline.Complete terminator rest) :
    newline.lines (newline.chars terminator ++ rest) = [newline.lf] :: newline.lines rest := by
  cases terminator with
  | lf => simp [chars, lines]
  | crlf => simp [chars, lines, newline.cr_ne_lf]
  | cr =>
    have hhead : rest.head? ≠ some newline.lf := hcomplete rfl
    simp [chars, lines, newline.cr_ne_lf, hhead]

/-- A complete terminator cuts a line off. -/
theorem lines_terminated {line rest : List α} {terminator : Terminator}
    (hline : newline.Inner line) (hcomplete : newline.Complete terminator rest) :
    newline.lines (line ++ (newline.chars terminator ++ rest)) =
      (line ++ [newline.lf]) :: newline.lines rest :=
  lines_inner_append hline (lines_chars_append hcomplete)

/-- A text that ends no line, or some terminator with text on both sides of it. -/
theorem inner_or_terminated (newline : Newline α) (text : List α) :
    newline.Inner text ∨
      ∃ line terminator rest, newline.Inner line ∧ newline.Complete terminator rest ∧
        text = line ++ (newline.chars terminator ++ rest) := by
  induction text with
  | nil => exact Or.inl inner_nil
  | cons x text ih =>
    by_cases hlf : x = newline.lf
    · refine Or.inr ⟨[], .lf, text, inner_nil, by simp [Complete], ?_⟩
      simp [chars, hlf]
    · by_cases hcr : x = newline.cr
      · by_cases hhead : text.head? = some newline.lf
        · obtain ⟨rest, rfl⟩ : ∃ rest, text = newline.lf :: rest :=
            List.head?_eq_some_iff.mp hhead
          refine Or.inr ⟨[], .crlf, rest, inner_nil, by simp [Complete], ?_⟩
          simp [chars, hcr]
        · refine Or.inr ⟨[], .cr, text, inner_nil, fun _ => hhead, ?_⟩
          simp [chars, hcr]
      · rcases ih with htext | ⟨line, terminator, rest, hline, hcomplete, rfl⟩
        · exact Or.inl (inner_cons.mpr ⟨⟨hcr, hlf⟩, htext⟩)
        · exact Or.inr ⟨x :: line, terminator, rest, inner_cons.mpr ⟨⟨hcr, hlf⟩, hline⟩,
            hcomplete, rfl⟩

/-- Induction along the lines of a text. -/
theorem induct (newline : Newline α) {motive : List α → Prop}
    (rest : ∀ text, newline.Inner text → motive text)
    (line : ∀ line terminator rest, newline.Inner line → newline.Complete terminator rest →
      motive rest → motive (line ++ (newline.chars terminator ++ rest)))
    (text : List α) : motive text := by
  induction hn : text.length using Nat.strongRecOn generalizing text with
  | _ n ih =>
    subst hn
    rcases newline.inner_or_terminated text with
      htext | ⟨front, terminator, behind, hfront, hcomplete, rfl⟩
    · exact rest text htext
    · refine line front terminator behind hfront hcomplete (ih _ ?_ behind rfl)
      have hpos := List.length_pos_iff.mpr (newline.chars_ne_nil terminator)
      simp only [List.length_append]
      omega

/-! ## Two texts -/

/-- Two texts meet where a line ends: the first is empty, or its last terminator is complete
in front of the second. -/
def MeetAtLineEnd (newline : Newline α) (left right : List α) : Prop :=
  left = [] ∨ left.getLast? = some newline.lf ∨
    (left.getLast? = some newline.cr ∧ right.head? ≠ some newline.lf)

/-- Texts that meet where a line ends have their lines apart. -/
theorem lines_append {left right : List α} (hmeet : newline.MeetAtLineEnd left right) :
    newline.lines (left ++ right) = newline.lines left ++ newline.lines right := by
  induction left using newline.induct with
  | rest left hleft =>
    rcases hmeet with rfl | hlast | ⟨hlast, -⟩
    · rfl
    · exact absurd rfl (hleft _ (List.mem_of_getLast? hlast)).2
    · exact absurd rfl (hleft _ (List.mem_of_getLast? hlast)).1
  | line line terminator rest hline hcomplete ih =>
    have hparts : newline.Complete terminator (rest ++ right) ∧
        newline.MeetAtLineEnd rest right := by
      cases rest with
      | nil =>
        refine ⟨?_, Or.inl rfl⟩
        rintro rfl
        rcases hmeet with hnil | hlast | ⟨-, hright⟩
        · simp [chars] at hnil
        · simp [chars, newline.cr_ne_lf] at hlast
        · exact hright
      | cons x rest =>
        refine ⟨hcomplete, Or.inr ?_⟩
        have hlast : (line ++ (newline.chars terminator ++ x :: rest)).getLast? =
            (x :: rest).getLast? := by
          simp [List.getLast?_append, List.getLast?_cons]
        rcases hmeet with hnil | hmeet
        · simp at hnil
        · rw [hlast] at hmeet
          exact hmeet
    rw [List.append_assoc, List.append_assoc, lines_terminated hline hparts.1,
      lines_terminated hline hcomplete, ih hparts.2]
    rfl

end Newline

/-! ## Lines cut off the bytes in hand -/

namespace Cut

open Newline (bytes)

@[simp] theorem isInner_cr : isInner cr = false := rfl

@[simp] theorem isInner_lf : isInner lf = false := rfl

theorem isInner_iff {b : UInt8} : isInner b = true ↔ b ≠ cr ∧ b ≠ lf := by
  simp [isInner, and_comm]

theorem isInner_of_mem {line : Bytes} (hline : bytes.Inner line) {b : UInt8}
    (hb : b ∈ line) : isInner b = true :=
  isInner_iff.mpr (hline b hb)

/-- Bytes that end no line are cut off only when no more will come. -/
theorem first?_inner {line : Bytes} (hline : bytes.Inner line) (atEnd : Bool) :
    first? line atEnd = if atEnd && !line.isEmpty then some ⟨line.length, line⟩ else none := by
  have hall : ∀ b ∈ line, isInner b = true := fun b hb => isInner_of_mem hline hb
  have hdrop : (line ++ []).dropWhile isInner = [].dropWhile isInner :=
    List.dropWhile_append_of_pos hall
  rw [List.append_nil, List.dropWhile_nil] at hdrop
  simp only [first?, hdrop]

/-- A terminated line is cut off, unless its terminator is a CR in last place and more may
come. -/
theorem first?_terminated {line rest : Bytes} {terminator : Terminator}
    (hline : bytes.Inner line) (hcomplete : bytes.Complete terminator rest) (atEnd : Bool) :
    first? (line ++ (bytes.chars terminator ++ rest)) atEnd =
      if atEnd = false ∧ terminator = .cr ∧ rest = [] then none
      else some ⟨line.length + (bytes.chars terminator).length, line ++ [lf]⟩ := by
  have hall : ∀ b ∈ line, isInner b = true := fun b hb => isInner_of_mem hline hb
  have hne : cr ≠ lf := bytes.cr_ne_lf
  simp only [first?, List.takeWhile_append_of_pos hall, List.dropWhile_append_of_pos hall]
  cases terminator with
  | lf => simp [Newline.chars, bytes]
  | crlf => simp [Newline.chars, bytes, hne]
  | cr =>
    cases rest with
    | nil => cases atEnd <;> simp [Newline.chars, bytes, hne]
    | cons next rest =>
      have hnext : next ≠ lf := by
        intro h
        exact hcomplete rfl (by rw [h]; rfl)
      simp [Newline.chars, bytes, hne, hnext]

/-- What a cut can be: all bytes in hand at the end, or a line with its terminator, which is no
CR in last place unless the data ends there. -/
theorem first?_cases {data : Bytes} {atEnd : Bool} {cut : Cut}
    (h : first? data atEnd = some cut) :
    (atEnd = true ∧ data ≠ [] ∧ bytes.Inner data ∧ cut = ⟨data.length, data⟩) ∨
      ∃ line terminator rest, bytes.Inner line ∧ bytes.Complete terminator rest ∧
        (atEnd = false → ¬ (terminator = .cr ∧ rest = [])) ∧
        data = line ++ (bytes.chars terminator ++ rest) ∧
        cut = ⟨line.length + (bytes.chars terminator).length, line ++ [lf]⟩ := by
  rcases bytes.inner_or_terminated data with
    hdata | ⟨line, terminator, rest, hline, hcomplete, rfl⟩
  · rw [first?_inner hdata] at h
    split at h
    · rename_i hat
      simp only [Bool.and_eq_true, Bool.not_eq_true', List.isEmpty_eq_false_iff] at hat
      simp only [Option.some.injEq] at h
      exact Or.inl ⟨hat.1, hat.2, hdata, h.symm⟩
    · cases h
  · rw [first?_terminated hline hcomplete] at h
    split at h
    · cases h
    · rename_i hat
      simp only [Option.some.injEq] at h
      exact Or.inr ⟨line, terminator, rest, hline, hcomplete,
        fun hmore hlast => hat ⟨hmore, hlast⟩, rfl, h.symm⟩

theorem drop_terminated (line rest : Bytes) (terminator : Terminator) :
    (line ++ (bytes.chars terminator ++ rest)).drop
      (line.length + (bytes.chars terminator).length) = rest := by
  rw [← List.append_assoc, ← List.length_append, List.drop_left]

/-- What is cut off the bytes in hand is the first line of every text that they start; at
the end they are the whole text. -/
theorem lines_of_first? {data : Bytes} {atEnd : Bool} {cut : Cut}
    (h : first? data atEnd = some cut) {more : Bytes} (hmore : atEnd = true → more = []) :
    bytes.lines (data ++ more) = cut.line :: bytes.lines (data.drop cut.width ++ more) := by
  rcases first?_cases h with
    ⟨hat, hne, hdata, rfl⟩ | ⟨line, terminator, rest, hline, hcomplete, hlast, rfl, rfl⟩
  · rw [hmore hat, List.append_nil, Newline.lines_inner hdata hne]
    simp [Newline.lines]
  · have hmoreComplete : bytes.Complete terminator (rest ++ more) := by
      cases atEnd with
      | false => exact hcomplete.append (hlast rfl) more
      | true =>
        rw [hmore rfl, List.append_nil]
        exact hcomplete
    rw [drop_terminated, List.append_assoc, List.append_assoc,
      Newline.lines_terminated hline hmoreComplete]
    rfl

/-- At the end, nothing is cut off only if nothing is left. -/
theorem eq_nil_of_first?_eq_none {data : Bytes} (h : first? data true = none) : data = [] := by
  rcases bytes.inner_or_terminated data with
    hdata | ⟨line, terminator, rest, hline, hcomplete, rfl⟩
  · rw [first?_inner hdata] at h
    simpa using h
  · rw [first?_terminated hline hcomplete, if_neg (by simp)] at h
    cases h

end Cut

end BraceBalance
