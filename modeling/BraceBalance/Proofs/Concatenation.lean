/-
  Scanning one text after another.

  Where two texts meet at the end of a line, lines, declarations and columns of either do not
  depend on the other, and the second text only moves down by the lines of the first.  The
  braces do depend on each other: those the first text leaves open meet the closing ones that
  the second would have reported.
-/
import BraceBalance.Proofs.Findings

set_option autoImplicit false

namespace BraceBalance

/-! ## Moving down by some lines -/

/-- The position some lines further down. -/
def Position.shift (lines : Nat) (position : Position) : Position :=
  { position with line := position.line + lines }

/-- The brace some lines further down. -/
def OpenBrace.shift (lines : Nat) (brace : OpenBrace) : OpenBrace :=
  { brace with position := brace.position.shift lines }

/-- The declaration some lines further down. -/
def FunctionSite.shift (lines : Nat) (site : FunctionSite) : FunctionSite :=
  { site with line := site.line + lines }

namespace Line

theorem braces_add (number lines : Nat) (text : List Char) :
    braces ⟨number + lines, text⟩ =
      (braces ⟨number, text⟩).map fun brace => (brace.1, brace.2.shift lines) := by
  unfold braces
  rw [map_placed]
  rfl

theorem site?_add (number lines : Nat) (text : List Char) :
    site? ⟨number + lines, text⟩ = (site? ⟨number, text⟩).map (·.shift lines) := by
  unfold site?
  rw [Option.map_map]
  rfl

theorem flatMap_braces_add (first lines : Nat) (texts : List Bytes) :
    (Reader.numbered (first + lines) texts).flatMap braces =
      ((Reader.numbered first texts).flatMap braces).map
        fun brace => (brace.1, brace.2.shift lines) := by
  induction texts generalizing first with
  | nil => rfl
  | cons text texts ih =>
    rw [Reader.numbered_cons, Reader.numbered_cons, List.flatMap_cons, List.flatMap_cons,
      List.map_append, braces_add, Nat.add_right_comm, ih]

theorem filterMap_site?_add (first lines : Nat) (texts : List Bytes) :
    (Reader.numbered (first + lines) texts).filterMap site? =
      ((Reader.numbered first texts).filterMap site?).map (·.shift lines) := by
  induction texts generalizing first with
  | nil => rfl
  | cons text texts ih =>
    rw [Reader.numbered_cons, Reader.numbered_cons, List.filterMap_cons, List.filterMap_cons,
      site?_add, Nat.add_right_comm, ih]
    cases site? ⟨first, Utf8.text text⟩ <;> rfl

end Line

/-! ## Two texts in a row -/

open Newline (bytes)

theorem Report.ofContent_append (filename : Bytes) {left right : Bytes}
    (hmeet : bytes.MeetAtLineEnd left right) :
    let first := Report.ofContent filename left
    let second := Report.ofContent filename right
    let lines := (bytes.lines left).length
    let pairs := min first.unclosed.length second.extraClosing.length
    Report.ofContent filename (left ++ right) =
      ⟨filename,
        first.extraClosing ++ (second.extraClosing.drop pairs).map (·.shift lines),
        first.unclosed.take (first.unclosed.length - pairs) ++
          second.unclosed.map (·.shift lines),
        first.functions ++ second.functions.map (·.shift lines)⟩ := by
  intro first second lines pairs
  have hword : (Reader.numbered 1 (bytes.lines (left ++ right))).flatMap Line.braces =
      (Reader.numbered 1 (bytes.lines left)).flatMap Line.braces ++
        ((Reader.numbered 1 (bytes.lines right)).flatMap Line.braces).map
          fun brace => (brace.1, brace.2.shift lines) := by
    rw [Newline.lines_append hmeet, Reader.numbered_append, List.flatMap_append,
      Line.flatMap_braces_add]
  have hsites : (Reader.numbered 1 (bytes.lines (left ++ right))).filterMap Line.site? =
      first.functions ++ second.functions.map (·.shift lines) := by
    rw [Newline.lines_append hmeet, Reader.numbered_append, List.filterMap_append,
      Line.filterMap_site?_add]
    rfl
  have hat : ∀ position : Position,
      OpenBrace.at (position.shift lines) = (OpenBrace.at position).shift lines := fun _ => rfl
  simp only [Report.ofContent, hsites, hword, Unmatched.ofWord_append, ← Unmatched.map_ofWord,
    Unmatched.join, Unmatched.map, first, second, pairs, List.length_map, List.map_drop,
    List.map_take, List.map_append, List.map_map, Function.comp_def, hat]

/-- A scan of two texts in a row, the first of which ends where a line ends, reports what
scans of the two report apart: the closing braces that the second would miss a partner for
take the most recent braces that the first leaves open, and everything found in the second
text moves down by the lines of the first. -/
theorem scan_of_concatenation (first second whole : Source) (filename : Bytes)
    (listening : Bool) (hfirst : first.outcome = none) (hsecond : second.outcome = none)
    (hwhole : whole.outcome = none) (hcontent : whole.content = first.content ++ second.content)
    (hmeet : bytes.MeetAtLineEnd first.content second.content) :
    ∃ left right report,
      (first.scan filename listening).result = .ok left ∧
      (second.scan filename listening).result = .ok right ∧
      (whole.scan filename listening).result = .ok report ∧
      let lines := (Reader.ofSource first).lines.1.length
      let pairs := min left.unclosed.length right.extraClosing.length
      report.extraClosing =
          left.extraClosing ++ (right.extraClosing.drop pairs).map (·.shift lines) ∧
        report.unclosed =
          left.unclosed.take (left.unclosed.length - pairs) ++
            right.unclosed.map (·.shift lines) ∧
        report.functions = left.functions ++ right.functions.map (·.shift lines) := by
  refine ⟨_, _, _, Source.scan_result hfirst filename listening,
    Source.scan_result hsecond filename listening,
    Source.scan_result hwhole filename listening, ?_⟩
  have hlines : (Reader.ofSource first).lines.1.length = (bytes.lines first.content).length := by
    rw [Reader.lines_ofSource]
    exact Reader.length_numbered 1 _
  rw [hcontent, Report.ofContent_append filename hmeet, hlines]
  exact ⟨rfl, rfl, rfl⟩

/-- Two braces wait in the first text, whose only line ends in a lone CR; the second text
closes three and opens one. -/
theorem scan_of_concatenation_crossing :
    let first := Source.ofContent [0x7B, 0x7B, cr]
    let second := Source.ofContent [0x7D, 0x7D, lf, 0x7D, 0x7B]
    let whole := Source.ofReads [[0x7B], [], [0x7B, cr, 0x7D], [0x7D, lf, 0x7D, 0x7B]] none
    first.outcome = none ∧ second.outcome = none ∧ whole.outcome = none ∧
      whole.content = first.content ++ second.content ∧
      bytes.MeetAtLineEnd first.content second.content ∧
      ∃ report, (whole.scan [] false).result = .ok report ∧
        report.extraClosing = [⟨3, 0⟩] ∧
        report.unclosed = [OpenBrace.at ⟨3, 1⟩] ∧ report.functions = [] := by
  intro first second whole
  have hfirst : first.outcome = none := by decide
  have hsecond : second.outcome = none := by decide
  have hwhole : whole.outcome = none := by decide
  have hcontent : whole.content = first.content ++ second.content := by decide
  have hmeet : bytes.MeetAtLineEnd first.content second.content := Or.inr (Or.inr (by decide))
  obtain ⟨left, right, report, hleft, hright, hreport, hextra, hunclosed, hfunctions⟩ :=
    scan_of_concatenation first second whole [] false hfirst hsecond hwhole hcontent hmeet
  rw [Source.scan_result hfirst] at hleft
  rw [Source.scan_result hsecond] at hright
  cases hleft
  cases hright
  refine ⟨hfirst, hsecond, hwhole, hcontent, hmeet, report, hreport, ?_, ?_, ?_⟩
  · rw [hextra]
    decide +kernel
  · rw [hunclosed]
    decide +kernel
  · rw [hfunctions]
    decide +kernel

end BraceBalance
