/-
  Texts written out as lines and terminators.

  A text can be written as lines, each behind the other with its terminator, and a rest.  The
  only way to write one text in two forms is to take a CR LF apart into a line that ends in CR
  and an empty line that ends in LF; a form that never does so is admissible.  Every text has
  exactly one admissible form, its lines are those of the form, and so the choice of the
  terminators cannot be told from anything a scan finds.
-/
import BraceBalance.Proofs.Findings
import BraceBalance.Proofs.LineText
import BraceBalance.Proofs.Run

set_option autoImplicit false

namespace BraceBalance

/-- A text written out: lines, each with its terminator, and the rest behind the last one. -/
structure Written (α : Type) where
  lines : List (List α × Terminator)
  rest : List α
  deriving DecidableEq, Repr

namespace Written

variable {α : Type} (newline : Newline α)

/-- The text that is written. -/
def text (written : Written α) : List α :=
  written.lines.flatMap (fun line => line.1 ++ newline.chars line.2) ++ written.rest

/-- A form in which every terminator that stands in the text is one of the form's own: lines
and rest hold none, and no lone CR is followed by an empty line that ends in LF. -/
structure Admissible (written : Written α) : Prop where
  lines : ∀ line ∈ written.lines, newline.Inner line.1
  rest : newline.Inner written.rest
  apart : ∀ (index : Nat) (line : List α), written.lines[index]? = some (line, .cr) →
    written.lines[index + 1]? ≠ some ([], .lf)

variable {newline} {line rest : List α} {terminator : Terminator}
  {lines : List (List α × Terminator)}

theorem text_nil : text newline ⟨[], rest⟩ = rest := by
  simp [text]

theorem text_cons :
    text newline ⟨(line, terminator) :: lines, rest⟩ =
      line ++ (newline.chars terminator ++ text newline ⟨lines, rest⟩) := by
  simp [text]

theorem admissible_nil (hrest : newline.Inner rest) : Admissible newline ⟨[], rest⟩ where
  lines := by simp
  rest := hrest
  apart := by simp

/-- An admissible form starts with an LF only where its first line is empty and ends in LF. -/
theorem head?_text (lines : List (List α × Terminator))
    (hlines : ∀ line ∈ lines, newline.Inner line.1) (hrest : newline.Inner rest) :
    (text newline ⟨lines, rest⟩).head? = some newline.lf ↔ lines[0]? = some ([], .lf) := by
  cases lines with
  | nil =>
    rw [text_nil, List.getElem?_nil]
    constructor
    · intro hhead
      exact absurd rfl (hrest _ (List.mem_of_head? hhead)).2
    · intro hnone
      cases hnone
  | cons entry lines =>
    obtain ⟨line, terminator⟩ := entry
    have hline : newline.Inner line := hlines _ List.mem_cons_self
    rw [text_cons, List.getElem?_cons_zero, Option.some.injEq]
    cases line with
    | nil => cases terminator <;> simp [Newline.chars, newline.cr_ne_lf]
    | cons x line =>
      have hx := (Newline.inner_cons.mp hline).1
      simp [hx.2]

/-- A form is admissible line by line: each line holds no terminator, and its own is complete
in front of what follows. -/
theorem admissible_cons :
    Admissible newline ⟨(line, terminator) :: lines, rest⟩ ↔
      newline.Inner line ∧ newline.Complete terminator (text newline ⟨lines, rest⟩) ∧
        Admissible newline ⟨lines, rest⟩ := by
  constructor
  · intro h
    have hlines : ∀ line ∈ lines, newline.Inner line.1 := fun other hother =>
      h.lines other (List.mem_cons_of_mem _ hother)
    refine ⟨h.lines _ List.mem_cons_self, ?_, hlines, h.rest, ?_⟩
    · rintro rfl hhead
      exact h.apart 0 line rfl ((head?_text lines hlines h.rest).mp hhead)
    · intro index other hother
      exact h.apart (index + 1) other hother
  · rintro ⟨hline, hcomplete, h⟩
    refine ⟨List.forall_mem_cons.mpr ⟨hline, h.lines⟩, h.rest, ?_⟩
    intro index other hother
    cases index with
    | zero =>
      obtain ⟨-, hcr⟩ := Prod.mk.inj (Option.some.inj hother)
      intro hnext
      exact hcomplete hcr ((head?_text lines h.lines h.rest).mpr hnext)
    | succ index => exact h.apart index other hother

/-! ## One admissible form for every text -/

/-- A terminator that is complete in front of what follows can be told from the text. -/
theorem chars_unique {first second : Terminator} {left right : List α}
    (hfirst : newline.Complete first left) (hsecond : newline.Complete second right)
    (h : newline.chars first ++ left = newline.chars second ++ right) :
    first = second ∧ left = right := by
  have hne := newline.cr_ne_lf
  cases first <;> cases second <;>
    simp only [Newline.chars, List.cons_append, List.nil_append, List.cons.injEq, hne, hne.symm,
      true_and, false_and] at h
  · exact ⟨rfl, h⟩
  · exact ⟨rfl, h⟩
  · exact absurd (by rw [← h]; rfl) (hsecond rfl)
  · exact absurd (by rw [h]; rfl) (hfirst rfl)
  · exact ⟨rfl, h⟩

theorem not_inner_terminated (line : List α) (terminator : Terminator) (rest : List α) :
    ¬ newline.Inner (line ++ (newline.chars terminator ++ rest)) := by
  intro hinner
  cases terminator with
  | lf => exact (hinner newline.lf (by simp [Newline.chars])).2 rfl
  | crlf => exact (hinner newline.cr (by simp [Newline.chars])).1 rfl
  | cr => exact (hinner newline.cr (by simp [Newline.chars])).1 rfl

variable [DecidableEq α]

theorem exists_admissible (newline : Newline α) (text : List α) :
    ∃ written, Admissible newline written ∧ written.text newline = text := by
  induction text using newline.induct with
  | rest text htext => exact ⟨⟨[], text⟩, admissible_nil htext, text_nil⟩
  | line line terminator rest hline hcomplete ih =>
    obtain ⟨written, hwritten, rfl⟩ := ih
    exact ⟨⟨(line, terminator) :: written.lines, written.rest⟩,
      admissible_cons.mpr ⟨hline, hcomplete, hwritten⟩, text_cons⟩

/-- A text has one way to be cut behind its first complete terminator. -/
theorem terminated_unique {first second left right : List α} {terminator other : Terminator}
    (hfirst : newline.Inner first) (hsecond : newline.Inner second)
    (hleft : newline.Complete terminator left) (hright : newline.Complete other right)
    (h : first ++ (newline.chars terminator ++ left) =
      second ++ (newline.chars other ++ right)) :
    first = second ∧ terminator = other ∧ left = right := by
  let isInner := fun x => decide (x ≠ newline.cr ∧ x ≠ newline.lf)
  have hruns : ∀ {line : List α}, newline.Inner line → ∀ x ∈ line, isInner x = true :=
    fun hline x hx => decide_eq_true (hline x hx)
  have hends : ∀ (terminator : Terminator) (rest : List α),
      EndsRun isInner (newline.chars terminator ++ rest) := by
    intro terminator rest
    cases terminator <;> exact endsRun_cons (by simp [isInner]) _
  obtain ⟨hline, hchars⟩ :=
    run_unique (hruns hfirst) (hruns hsecond) (hends terminator left) (hends other right) h
  exact ⟨hline, chars_unique hleft hright hchars⟩

theorem eq_of_text_eq {first second : Written α} (hfirst : Admissible newline first)
    (hsecond : Admissible newline second)
    (h : first.text newline = second.text newline) : first = second := by
  obtain ⟨lines, rest⟩ := first
  obtain ⟨otherLines, otherRest⟩ := second
  induction lines generalizing otherLines with
  | nil =>
    rw [text_nil] at h
    cases otherLines with
    | nil => rw [h, text_nil]
    | cons other otherLines =>
      rw [text_cons] at h
      exact absurd (h ▸ hfirst.rest) (not_inner_terminated _ _ _)
  | cons entry lines ih =>
    obtain ⟨line, terminator⟩ := entry
    obtain ⟨hline, hcomplete, hlines⟩ := admissible_cons.mp hfirst
    rw [text_cons] at h
    cases otherLines with
    | nil =>
      rw [text_nil] at h
      exact absurd (h ▸ hsecond.rest) (not_inner_terminated _ _ _)
    | cons other otherLines =>
      obtain ⟨otherLine, otherTerminator⟩ := other
      obtain ⟨hotherLine, hotherComplete, hotherLines⟩ := admissible_cons.mp hsecond
      rw [text_cons] at h
      obtain ⟨rfl, rfl, htext⟩ :=
        terminated_unique hline hotherLine hcomplete hotherComplete h
      cases ih hlines otherLines hotherLines htext
      rfl

/-! ## The lines of a form -/

/-- The lines of a written text, each terminator as one LF. -/
def cut (newline : Newline α) (written : Written α) : List (List α) :=
  written.lines.map (fun line => line.1 ++ [newline.lf]) ++
    if written.rest = [] then [] else [written.rest]

theorem lines_text {written : Written α} (h : Admissible newline written) :
    newline.lines (written.text newline) = written.cut newline := by
  obtain ⟨lines, rest⟩ := written
  induction lines with
  | nil =>
    rw [text_nil, cut]
    by_cases hnil : rest = []
    · simp [hnil, Newline.lines]
    · simp [hnil, Newline.lines_inner h.rest hnil]
  | cons entry lines ih =>
    obtain ⟨line, terminator⟩ := entry
    obtain ⟨hline, hcomplete, hlines⟩ := admissible_cons.mp h
    rw [text_cons, Newline.lines_terminated hline hcomplete, ih hlines]
    rfl

end Written

/-! ## What a reader and a scan make of a form -/

namespace Written

open Newline (bytes)

/-- The numbered lines of a written text: those with a terminator end in LF, and the rest is
one more line unless it is empty. -/
def handedOut (written : Written UInt8) : List Line :=
  (written.lines.zipIdx 1).map (fun line => ⟨line.2, Utf8.text line.1.1 ++ ['\n']⟩) ++
    if written.rest = [] then []
    else [⟨written.lines.length + 1, Utf8.text written.rest⟩]

theorem numbered_cut (written : Written UInt8) :
    Reader.numbered 1 (written.cut bytes) = written.handedOut := by
  have hlines : ∀ (first : Nat) (lines : List (Bytes × Terminator)),
      Reader.numbered first (lines.map fun line => line.1 ++ [bytes.lf]) =
        (lines.zipIdx first).map fun line => ⟨line.2, Utf8.text line.1.1 ++ ['\n']⟩ := by
    intro first lines
    induction lines generalizing first with
    | nil => simp
    | cons line lines ih =>
      rw [List.map_cons, Reader.numbered_cons, ih, List.zipIdx_cons, List.map_cons]
      exact congrArg (fun text => Line.mk first text :: _) (Utf8.text_line line.1)
  rw [cut, Reader.numbered_append, hlines, handedOut, List.length_map, Nat.add_comm 1]
  split <;> rfl

/-- Two forms that differ at most in the choice of their terminators. -/
structure SameLines (first second : Written UInt8) : Prop where
  lines : first.lines.map Prod.fst = second.lines.map Prod.fst
  rest : first.rest = second.rest

theorem SameLines.cut_eq {first second : Written UInt8} (h : SameLines first second) :
    first.cut bytes = second.cut bytes := by
  have hmap : ∀ written : Written UInt8,
      written.lines.map (fun line => line.1 ++ [bytes.lf]) =
        (written.lines.map Prod.fst).map (· ++ [bytes.lf]) := by
    intro written
    rw [List.map_map]
    rfl
  rw [cut, cut, hmap, hmap, h.lines, h.rest]

end Written

open Newline (bytes)

/-- Every byte string has exactly one admissible form.  The reader of a stream hands out the
lines of the form of its content, and so neither the lines nor the findings of a scan depend
on the terminators that a form chooses. -/
theorem scan_of_every_terminator_style :
    (∀ text : Bytes, ∃ written, written.Admissible bytes ∧ written.text bytes = text ∧
      ∀ other : Written UInt8, other.Admissible bytes → other.text bytes = text →
        other = written) ∧
    (∀ (written : Written UInt8) (source : Source), written.Admissible bytes →
      source.content = written.text bytes →
      (Reader.ofSource source).lines.1 = written.handedOut) ∧
    ∀ (first second : Written UInt8) (left right : Source), first.Admissible bytes →
      second.Admissible bytes → first.SameLines second →
      left.content = first.text bytes → right.content = second.text bytes →
      (Reader.ofSource left).lines.1 = (Reader.ofSource right).lines.1 ∧
        ∀ (filename : Bytes) (listening : Bool), left.outcome = none → right.outcome = none →
          ∃ report other, (left.scan filename listening).result = .ok report ∧
            (right.scan filename listening).result = .ok other ∧
            report.extraClosing = other.extraClosing ∧ report.unclosed = other.unclosed ∧
            report.functions = other.functions := by
  refine ⟨?_, ?_, ?_⟩
  · intro text
    obtain ⟨written, hwritten, htext⟩ := Written.exists_admissible bytes text
    refine ⟨written, hwritten, htext, ?_⟩
    intro other hother hsame
    exact Written.eq_of_text_eq hother hwritten (hsame.trans htext.symm)
  · intro written source hwritten hcontent
    rw [Reader.lines_ofSource, hcontent, Written.lines_text hwritten, Written.numbered_cut]
  · intro first second left right hfirst hsecond hsame hleft hright
    have hlines : bytes.lines left.content = bytes.lines right.content := by
      rw [hleft, hright, Written.lines_text hfirst, Written.lines_text hsecond, hsame.cut_eq]
    refine ⟨?_, ?_⟩
    · rw [Reader.lines_ofSource, Reader.lines_ofSource, hlines]
    · intro filename listening hleftEnd hrightEnd
      refine ⟨_, _, Source.scan_result hleftEnd filename listening,
        Source.scan_result hrightEnd filename listening, ?_⟩
      rw [Report.ofContent, Report.ofContent, hlines]
      exact ⟨rfl, rfl, rfl⟩

/-- A lone CR in front of an empty line that ends in CR LF, against two LF. -/
theorem scan_of_every_terminator_style_mixed :
    let first : Written UInt8 := ⟨[([0x7D], .cr), ([], .crlf)], [0x7B]⟩
    let second : Written UInt8 := ⟨[([0x7D], .lf), ([], .lf)], [0x7B]⟩
    let left := Source.ofReads [[0x7D, cr, cr], [lf, 0x7B]] none
    let right := Source.ofContent [0x7D, lf, lf, 0x7B]
    first.Admissible bytes ∧ second.Admissible bytes ∧ first.SameLines second ∧
      left.content = first.text bytes ∧ right.content = second.text bytes ∧
      (Reader.ofSource left).lines.1 = [⟨1, ['}', '\n']⟩, ⟨2, ['\n']⟩, ⟨3, ['{']⟩] ∧
      (Reader.ofSource left).lines.1 = (Reader.ofSource right).lines.1 ∧
      ∃ report other, (left.scan [] true).result = .ok report ∧
        (right.scan [] true).result = .ok other ∧ report.extraClosing = other.extraClosing ∧
        report.unclosed = other.unclosed ∧ report.functions = other.functions := by
  intro first second left right
  have hclosing : bytes.Inner [0x7D] := by simp [Newline.Inner, bytes, cr, lf]
  have hopening : bytes.Inner [0x7B] := by simp [Newline.Inner, bytes, cr, lf]
  have hrest := Written.admissible_nil hopening
  have hfirst : first.Admissible bytes :=
    Written.admissible_cons.mpr ⟨hclosing, by simp [Newline.Complete, Written.text, bytes, cr, lf,
      Newline.chars], Written.admissible_cons.mpr
        ⟨Newline.inner_nil, by simp [Newline.Complete], hrest⟩⟩
  have hsecond : second.Admissible bytes :=
    Written.admissible_cons.mpr ⟨hclosing, by simp [Newline.Complete],
      Written.admissible_cons.mpr ⟨Newline.inner_nil, by simp [Newline.Complete], hrest⟩⟩
  have hsame : first.SameLines second := ⟨rfl, rfl⟩
  have hleft : left.content = first.text bytes := by decide +kernel
  have hright : right.content = second.text bytes := by decide +kernel
  obtain ⟨-, hhanded, hstyle⟩ := scan_of_every_terminator_style
  obtain ⟨hlines, hscan⟩ := hstyle first second left right hfirst hsecond hsame hleft hright
  refine ⟨hfirst, hsecond, hsame, hleft, hright, ?_, hlines,
    hscan [] true (by decide +kernel) (by decide +kernel)⟩
  rw [hhanded first left hfirst hleft]
  decide +kernel

end BraceBalance
