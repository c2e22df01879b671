/-
  A stream that breaks off.

  The listener of a scan hears of an extra closing brace before the rest of the text is known,
  and a stream that breaks is scanned as if its text ended there.  Neither can be wrong
  afterwards: a text may break off anywhere, inside a character, a terminator or a name, and
  the lines up to the break are those of the whole text, the last one shortened
  (`Newline.lines_of_append`).  A shortened line has a part of the line's braces at the same
  positions, and its declaration, if it has one, is the declaration of the line.
-/
import BraceBalance.Proofs.Declaration
import BraceBalance.Proofs.Findings
import BraceBalance.Proofs.Utf8

set_option autoImplicit false

namespace BraceBalance

/-! ## The lines of a text that goes on -/

namespace Newline

variable {α : Type} {newline : Newline α}

theorem inner_append {front back : List α} (hfront : newline.Inner front)
    (hback : newline.Inner back) : newline.Inner (front ++ back) := by
  intro x hx
  rcases List.mem_append.mp hx with hx | hx
  · exact hfront x hx
  · exact hback x hx

variable [DecidableEq α]

/-- Text without terminator is the start of a line, whatever follows. -/
theorem lines_inner_append_any {front : List α} (hfront : newline.Inner front)
    (hne : front ≠ []) (back : List α) :
    ∃ grown more, newline.lines (front ++ back) = (front ++ grown) :: more := by
  rcases newline.inner_or_terminated back with
    hback | ⟨line, terminator, rest, hline, hcomplete, rfl⟩
  · refine ⟨back, [], lines_inner (inner_append hfront hback) ?_⟩
    simp [hne]
  · exact ⟨line ++ [newline.lf], newline.lines rest,
      lines_inner_append hfront (lines_terminated hline hcomplete)⟩

/-- The lines of a text are lines of every longer text, but for the last one, which may have
grown. -/
theorem lines_of_append (newline : Newline α) (front back : List α) :
    ∃ kept part more, newline.lines front = kept ++ part ∧
      newline.lines (front ++ back) = kept ++ more ∧
      (part = [] ∨ ∃ line grown rest, part = [line] ∧ more = (line ++ grown) :: rest) := by
  induction front using newline.induct with
  | rest front hfront =>
    by_cases hne : front = []
    · exact ⟨[], [], newline.lines back, by simp [hne, lines], by simp [hne], Or.inl rfl⟩
    · obtain ⟨grown, more, hmore⟩ := lines_inner_append_any hfront hne back
      exact ⟨[], [front], _, lines_inner hfront hne, hmore,
        Or.inr ⟨front, grown, more, rfl, rfl⟩⟩
  | line line terminator rest hline hcomplete ih =>
    obtain ⟨kept, part, more, hlines, hlonger, hpart⟩ := ih
    have hfirst : newline.lines (line ++ (newline.chars terminator ++ rest)) =
        (line ++ [newline.lf]) :: (kept ++ part) := by
      rw [lines_terminated hline hcomplete, hlines]
    by_cases hstill : newline.Complete terminator (rest ++ back)
    · refine ⟨(line ++ [newline.lf]) :: kept, part, more, hfirst, ?_, hpart⟩
      rw [List.append_assoc, List.append_assoc, lines_terminated hline hstill, hlonger]
      rfl
    · -- The break parts a CR from its LF: the line is complete on either side of it.
      obtain ⟨rfl, rfl⟩ : terminator = .cr ∧ rest = [] :=
        Classical.byContradiction fun hlast => hstill (hcomplete.append hlast back)
      have hhead : back.head? = some newline.lf := by simpa [Complete] using hstill
      obtain ⟨behind, rfl⟩ : ∃ behind, back = newline.lf :: behind :=
        List.head?_eq_some_iff.mp hhead
      refine ⟨[line ++ [newline.lf]], [], newline.lines behind, ?_, ?_, Or.inl rfl⟩
      · rw [lines_terminated hline hcomplete]
        rfl
      · have hcrlf : line ++ (newline.chars .cr ++ []) ++ newline.lf :: behind =
            line ++ (newline.chars .crlf ++ behind) := by simp [chars]
        rw [hcrlf, lines_terminated hline (by simp [Complete])]
        rfl

end Newline

open Newline (bytes)

/-! ## Findings in a text that goes on -/

/-- What is gathered line by line from a text comes first in what is gathered from a longer
text, if a line that grows keeps what was gathered from it. -/
theorem flatMap_numbered_prefix {β : Type} (gather : Line → List β)
    (hgrow : ∀ number text more, gather ⟨number, text⟩ <+: gather ⟨number, text ++ more⟩)
    (front back : Bytes) :
    (Reader.numbered 1 (bytes.lines front)).flatMap gather <+:
      (Reader.numbered 1 (bytes.lines (front ++ back))).flatMap gather := by
  obtain ⟨kept, part, more, hlines, hlonger, hpart⟩ := bytes.lines_of_append front back
  rw [hlines, hlonger, Reader.numbered_append, Reader.numbered_append, List.flatMap_append,
    List.flatMap_append, List.prefix_append_right_inj]
  rcases hpart with rfl | ⟨line, grown, rest, rfl, rfl⟩
  · exact List.nil_prefix
  · obtain ⟨behind, hbehind⟩ := Utf8.text_prefix line grown
    rw [Reader.numbered_cons, Reader.numbered_cons, Reader.numbered_nil, List.flatMap_cons,
      List.flatMap_cons, List.flatMap_nil, List.append_nil, ← hbehind]
    exact (hgrow _ _ _).trans (List.prefix_append _ _)

namespace Line

theorem braces_prefix (number : Nat) (text more : List Char) :
    braces ⟨number, text⟩ <+: braces ⟨number, text ++ more⟩ := by
  unfold braces
  rw [placed_append]
  exact List.prefix_append _ _

theorem site?_prefix (number : Nat) (text more : List Char) :
    (site? ⟨number, text⟩).toList <+: (site? ⟨number, text ++ more⟩).toList := by
  unfold site?
  cases hdetect : Declaration.detect? text with
  | none => exact List.nil_prefix
  | some name =>
    simp only [Declaration.detect?_append hdetect more, List.prefix_rfl]

end Line

namespace Report

theorem extraClosing_prefix (filename front back : Bytes) :
    (ofContent filename front).extraClosing <+:
      (ofContent filename (front ++ back)).extraClosing := by
  obtain ⟨word, hword⟩ := flatMap_numbered_prefix Line.braces Line.braces_prefix front back
  simp only [ofContent, ← hword, Unmatched.ofWord_append]
  exact List.prefix_append _ _

theorem functions_prefix (filename front back : Bytes) :
    (ofContent filename front).functions <+: (ofContent filename (front ++ back)).functions := by
  have hsites := flatMap_numbered_prefix (fun line => line.site?.toList) Line.site?_prefix
    front back
  rw [← List.filterMap_eq_flatMap_toList, ← List.filterMap_eq_flatMap_toList] at hsites
  exact hsites

end Report

/-! ## Streams by what they deliver -/

namespace Source

theorem beforeStuck?_eq_none_iff {reads : List Bytes} :
    beforeStuck? reads = none ↔ ¬ List.replicate (maxEmptyReads + 1) [] <:+: reads := by
  induction reads with
  | nil =>
    rw [List.infix_nil]
    simp [beforeStuck?]
  | cons read reads ih =>
    rw [beforeStuck?, List.infix_cons_iff, not_or, ← ih]
    by_cases hstuck : IsStuck (read :: reads)
    · rw [if_pos hstuck]
      simp only [reduceCtorEq, false_iff, not_and]
      exact fun hnot => absurd hstuck hnot
    · rw [if_neg hstuck, Option.map_eq_none_iff]
      exact ⟨fun h => ⟨hstuck, h⟩, fun h => h.2⟩

/-- A stream delivers some bytes, in whatever reads, and ends regularly or with a fault; no
run of empty reads makes its reader give up. -/
structure Delivers (source : Source) (content : Bytes) (fault : Option ReadFault) : Prop where
  bytes : source.reads.flatten ++ source.last = content
  ending : source.fault = fault
  flows : ¬ List.replicate (maxEmptyReads + 1) [] <:+: source.reads

theorem Delivers.delivered_eq {source : Source} {content : Bytes} {fault : Option ReadFault}
    (h : source.Delivers content fault) : source.delivered = (content, fault) := by
  rw [delivered, beforeStuck?_eq_none_iff.mpr h.flows, h.bytes, h.ending]

theorem Delivers.content_eq {source : Source} {content : Bytes} {fault : Option ReadFault}
    (h : source.Delivers content fault) : source.content = content := by
  rw [Source.content, h.delivered_eq]

theorem Delivers.outcome_eq {source : Source} {content : Bytes} {fault : Option ReadFault}
    (h : source.Delivers content fault) : source.outcome = fault := by
  rw [Source.outcome, h.delivered_eq]

end Source

/-! ## Scans of streams that break -/

/-- A scan of a stream that breaks tells its listener exactly the extra closing braces that a
scan of the text up to the break reports, and fails with the fault of the stream, without a
log entry.  Nothing that is found in a text up to some cut is taken back by what follows the
cut: its extra closing braces and its functions come first in those of the whole text.  On
every scan that succeeds the listener hears all extra closing braces, in order, and the
report does not depend on whether there is one. -/
theorem scan_of_interrupted_stream (content : Bytes) (cut : Nat) (filename : Bytes)
    (fault : ReadFault) (broken clean whole : Source)
    (hbroken : broken.Delivers (content.take cut) (some fault))
    (hclean : clean.Delivers (content.take cut) none) (hwhole : whole.Delivers content none) :
    ∃ part report,
      (clean.scan filename true).result = .ok part ∧
      (whole.scan filename true).result = .ok report ∧
      ((broken.scan filename true).heard = part.extraClosing ∧
        ∀ listening, (broken.scan filename listening).result =
            .error (.reading filename fault) ∧
          (broken.scan filename listening).log = []) ∧
      (part.extraClosing <+: report.extraClosing ∧ part.functions <+: report.functions) ∧
      ∀ source : Source,
        (∀ found, (source.scan filename true).result = .ok found →
          (source.scan filename true).heard = found.extraClosing) ∧
        (source.scan filename false).result = (source.scan filename true).result := by
  refine ⟨_, _, Source.scan_result hclean.outcome_eq filename true,
    Source.scan_result hwhole.outcome_eq filename true, ⟨?_, ?_⟩, ?_, ?_⟩
  · rw [Source.scan_eq, hbroken.outcome_eq, hbroken.content_eq, hclean.content_eq]
    rfl
  · intro listening
    rw [Source.scan_eq, hbroken.outcome_eq]
    exact ⟨rfl, rfl⟩
  · rw [hclean.content_eq, hwhole.content_eq]
    have hextra := Report.extraClosing_prefix filename (content.take cut) (content.drop cut)
    have hfunctions := Report.functions_prefix filename (content.take cut) (content.drop cut)
    rw [List.take_append_drop] at hextra hfunctions
    exact ⟨hextra, hfunctions⟩
  · intro source
    rw [Source.scan_eq, Source.scan_eq]
    cases source.outcome with
    | some fault =>
      refine ⟨?_, rfl⟩
      intro found h
      cases h
    | none =>
      refine ⟨?_, rfl⟩
      intro found h
      cases h
      rfl

/-- The stream breaks inside the two bytes of `é`, behind an extra closing brace and a
declaration; the whole text has one more brace behind that character. -/
theorem scan_of_interrupted_stream_inside_character :
    let content := Bytes.ofString "\x7dfunction f(" ++ [0xC3, 0xA9, 0x7D]
    let fault := ReadFault.broken (Bytes.ofString "gone")
    let broken : Source :=
      ⟨[Bytes.ofString "\x7dfunc", [], Bytes.ofString "tion f("], [0xC3], some fault⟩
    let clean := Source.ofContent (content.take 13)
    let whole := Source.ofContent content
    broken.Delivers (content.take 13) (some fault) ∧ clean.Delivers (content.take 13) none ∧
      whole.Delivers content none ∧
      (broken.scan [] true).heard = [⟨1, 0⟩] ∧
      (broken.scan [] true).result = .error (.reading [] fault) ∧
      ∃ report, (whole.scan [] true).result = .ok report ∧
        report.extraClosing = [⟨1, 0⟩, ⟨1, 13⟩] ∧
        [⟨Bytes.ofString "f", 1⟩] <+: report.functions := by
  intro content fault broken clean whole
  have hbroken : broken.Delivers (content.take 13) (some fault) :=
    ⟨by decide, rfl, Source.beforeStuck?_eq_none_iff.mp (by decide)⟩
  have hclean : clean.Delivers (content.take 13) none :=
    ⟨by decide, rfl, Source.beforeStuck?_eq_none_iff.mp (by decide)⟩
  have hwhole : whole.Delivers content none :=
    ⟨by decide, rfl, Source.beforeStuck?_eq_none_iff.mp (by decide)⟩
  obtain ⟨part, report, hpart, hreport, ⟨hheard, hfails⟩, ⟨-, hfunctions⟩, -⟩ :=
    scan_of_interrupted_stream content 13 [] fault broken clean whole hbroken hclean hwhole
  have hreport' := Source.scan_result hwhole.outcome_eq [] true
  rw [Source.scan_result hclean.outcome_eq, hclean.content_eq] at hpart
  rw [hreport, hwhole.content_eq] at hreport'
  cases hpart
  cases hreport'
  refine ⟨hbroken, hclean, hwhole, ?_, (hfails true).1, _, hreport, ?_, ?_⟩
  · rw [hheard]
    decide +kernel
  · decide +kernel
  · have hpart : (Report.ofContent [] (content.take 13)).functions =
        [⟨Bytes.ofString "f", 1⟩] := by decide +kernel
    rw [← hpart]
    exact hfunctions

end BraceBalance
