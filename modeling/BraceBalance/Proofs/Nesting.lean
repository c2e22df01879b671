/-
  Balanced nesting, as a grammar.

  A word of braces is balanced if it is empty, or an opening brace, a balanced word, the
  closing brace of the first and another balanced word.  Every word is a balanced word, then
  closing braces with a balanced word behind each, then opening braces with a balanced word
  behind each; the braces that part the balanced words are the same however the word is taken
  apart (`Factorisation.explicit_eq`), and they are what a scan reports.
-/
import BraceBalance.Proofs.Location

set_option autoImplicit false

namespace BraceBalance

open Unmatched (ofWord)

/-- Words in which every brace has its partner. -/
inductive Balanced : List Brace → Prop where
  | nil : Balanced []
  | pair {inner rest : List Brace} : Balanced inner → Balanced rest →
      Balanced (.opening :: inner ++ .closing :: rest)

section Factorisation

variable {α : Type}

/-- A brace and the word behind it. -/
def headed (brace : Brace) (part : α × List (Brace × α)) : List (Brace × α) :=
  (brace, part.1) :: part.2

/-- A placed word taken apart: a balanced word, closing braces and then opening braces, each
with a balanced word behind it. -/
structure Factorisation (word : List (Brace × α)) where
  first : List (Brace × α)
  /-- The places of the closing braces, each with the word behind it. -/
  closings : List (α × List (Brace × α))
  /-- The places of the opening braces, each with the word behind it. -/
  openings : List (α × List (Brace × α))
  spells : word = first ++ closings.flatMap (headed .closing) ++ openings.flatMap (headed .opening)
  balanced_first : Balanced (first.map Prod.fst)
  balanced_closings : ∀ part ∈ closings, Balanced (part.2.map Prod.fst)
  balanced_openings : ∀ part ∈ openings, Balanced (part.2.map Prod.fst)

namespace Factorisation

/-- The braces that part the balanced words. -/
def explicit {word : List (Brace × α)} (parts : Factorisation word) : Unmatched α :=
  ⟨parts.closings.map Prod.fst, parts.openings.map Prod.fst⟩

end Factorisation

/-! ## Derivations leave nothing unmatched -/

theorem Balanced.ofWord_eq_empty {word : List (Brace × α)} (h : Balanced (word.map Prod.fst)) :
    ofWord word = .empty := by
  generalize hkinds : word.map Prod.fst = kinds at h
  induction h generalizing word with
  | nil =>
    rw [List.map_eq_nil_iff.mp hkinds]
    rfl
  | pair _ _ ihInner ihRest =>
    rw [List.cons_append, List.map_eq_cons_iff] at hkinds
    obtain ⟨⟨_, left⟩, tail, rfl, rfl, htail⟩ := hkinds
    obtain ⟨inner, back, rfl, hinner, hback⟩ := List.map_eq_append_iff.mp htail
    obtain ⟨⟨_, right⟩, rest, rfl, rfl, hrest⟩ := List.map_eq_cons_iff.mp hback
    have hbehind : ofWord (inner ++ (.closing, right) :: rest) = ⟨[right], []⟩ := by
      rw [Unmatched.ofWord_append, ihInner hinner, Unmatched.empty_join,
        Unmatched.ofWord_closing_cons, ihRest hrest]
      rfl
    rw [Unmatched.ofWord_opening_cons, hbehind]
    rfl

theorem ofWord_balanced_append {word : List (Brace × α)} (h : Balanced (word.map Prod.fst))
    (rest : List (Brace × α)) : ofWord (word ++ rest) = ofWord rest := by
  rw [Unmatched.ofWord_append, h.ofWord_eq_empty, Unmatched.empty_join]

theorem ofWord_closings {parts : List (α × List (Brace × α))}
    (h : ∀ part ∈ parts, Balanced (part.2.map Prod.fst)) :
    ofWord (parts.flatMap (headed .closing)) = ⟨parts.map Prod.fst, []⟩ := by
  induction parts with
  | nil => rfl
  | cons part parts ih =>
    obtain ⟨hpart, hparts⟩ := List.forall_mem_cons.mp h
    rw [List.flatMap_cons, headed, List.cons_append, Unmatched.ofWord_closing_cons,
      ofWord_balanced_append hpart, ih hparts]
    rfl

theorem ofWord_openings {parts : List (α × List (Brace × α))}
    (h : ∀ part ∈ parts, Balanced (part.2.map Prod.fst)) :
    ofWord (parts.flatMap (headed .opening)) = ⟨[], parts.map Prod.fst⟩ := by
  induction parts with
  | nil => rfl
  | cons part parts ih =>
    obtain ⟨hpart, hparts⟩ := List.forall_mem_cons.mp h
    rw [List.flatMap_cons, headed, List.cons_append, Unmatched.ofWord_opening_cons,
      ofWord_balanced_append hpart, ih hparts]
    rfl

namespace Factorisation

variable {word : List (Brace × α)}

/-- However a word is taken apart, the braces between the balanced words are those that it
leaves without partner. -/
theorem explicit_eq (parts : Factorisation word) : parts.explicit = ofWord word := by
  have hword := congrArg ofWord parts.spells
  rw [List.append_assoc, ofWord_balanced_append parts.balanced_first, Unmatched.ofWord_append,
    ofWord_closings parts.balanced_closings, ofWord_openings parts.balanced_openings,
    Unmatched.join_of_le (Nat.zero_le _)] at hword
  exact hword.symm

/-- Every closing brace between the balanced words comes before every opening one. -/
theorem closings_before_openings (parts : Factorisation word) {before : α → α → Prop}
    (h : word.Pairwise fun brace other => before brace.2 other.2) :
    ∀ closing ∈ parts.closings, ∀ opening ∈ parts.openings, before closing.1 opening.1 := by
  intro closing hclosing opening hopening
  have hspells := parts.spells
  rw [hspells, List.pairwise_append] at h
  have hleft : (.closing, closing.1) ∈
      parts.first ++ parts.closings.flatMap (headed .closing) :=
    List.mem_append_right _ (List.mem_flatMap.mpr ⟨closing, hclosing, List.mem_cons_self⟩)
  have hright : (.opening, opening.1) ∈ parts.openings.flatMap (headed .opening) :=
    List.mem_flatMap.mpr ⟨opening, hopening, List.mem_cons_self⟩
  exact h.2.2 _ hleft _ hright

/-! ## Every word can be taken apart -/

/-- A closing brace in front has no partner; the balanced word behind it starts the rest. -/
def consClosing (parts : Factorisation word) (place : α) :
    Factorisation ((.closing, place) :: word) where
  first := []
  closings := (place, parts.first) :: parts.closings
  openings := parts.openings
  spells := by
    rw [List.flatMap_cons, headed, List.nil_append, List.cons_append, List.cons_append,
      ← parts.spells]
  balanced_first := .nil
  balanced_closings := List.forall_mem_cons.mpr ⟨parts.balanced_first, parts.balanced_closings⟩
  balanced_openings := parts.balanced_openings

/-- An opening brace in front takes the first closing brace without partner: with the words
behind the two it is one balanced word. -/
theorem nonempty_cons_opening (parts : Factorisation word) (place : α) :
    Nonempty (Factorisation ((.opening, place) :: word)) := by
  obtain ⟨first, closings, openings, hspells, hfirst, hclosings, hopenings⟩ := parts
  cases closings with
  | nil =>
    refine ⟨[], [], (place, first) :: openings, ?_, .nil, hclosings,
      List.forall_mem_cons.mpr ⟨hfirst, hopenings⟩⟩
    rw [hspells]
    simp [headed]
  | cons partner closings =>
    obtain ⟨hpartner, hclosings⟩ := List.forall_mem_cons.mp hclosings
    refine ⟨(.opening, place) :: first ++ (.closing, partner.1) :: partner.2, closings, openings,
      ?_, ?_, hclosings, hopenings⟩
    · rw [hspells]
      simp [headed]
    · rw [List.map_append]
      exact .pair hfirst hpartner

theorem nonempty (word : List (Brace × α)) : Nonempty (Factorisation word) := by
  induction word with
  | nil => exact ⟨[], [], [], rfl, .nil, List.forall_mem_nil _, List.forall_mem_nil _⟩
  | cons brace word ih =>
    obtain ⟨parts⟩ := ih
    obtain ⟨brace, place⟩ := brace
    cases brace with
    | opening => exact parts.nonempty_cons_opening place
    | closing => exact ⟨parts.consClosing place⟩

end Factorisation

/-- A word leaves nothing unmatched exactly if the grammar derives it. -/
theorem balanced_iff {word : List (Brace × α)} :
    Balanced (word.map Prod.fst) ↔ ofWord word = .empty := by
  constructor
  · exact Balanced.ofWord_eq_empty
  · intro hempty
    obtain ⟨parts⟩ := Factorisation.nonempty word
    have hexplicit : parts.explicit = .empty := parts.explicit_eq.trans hempty
    have hclosings : parts.closings = [] :=
      List.map_eq_nil_iff.mp (congrArg Unmatched.extra hexplicit)
    have hopenings : parts.openings = [] :=
      List.map_eq_nil_iff.mp (congrArg Unmatched.waiting hexplicit)
    have hword : word = parts.first := by
      have hspells := parts.spells
      rw [hclosings, hopenings, List.flatMap_nil, List.flatMap_nil, List.append_nil,
        List.append_nil] at hspells
      exact hspells
    have hfirst := parts.balanced_first
    rw [← hword] at hfirst
    exact hfirst

end Factorisation

/-! ## Braces at increasing positions -/

/-- A position comes before another one: it is on an earlier line, or further to the left on
the same line. -/
def Position.Before (position other : Position) : Prop :=
  position.line < other.line ∨ position.line = other.line ∧ position.column < other.column

namespace Line

theorem mem_placed {number start : Nat} {text : List Char} {brace : Brace × Position}
    (h : brace ∈ placed Brace.ofChar? (fun column => (⟨number, column⟩ : Position)) start text) :
    brace.2.line = number ∧ start ≤ brace.2.column := by
  obtain ⟨entry, hentry, hplace⟩ := List.mem_filterMap.mp h
  obtain ⟨found, -, rfl⟩ := Option.map_eq_some_iff.mp hplace
  exact ⟨rfl, Int.ofNat_le.mpr (List.le_snd_of_mem_zipIdx hentry)⟩

theorem braces_increase (number start : Nat) (text : List Char) :
    (placed Brace.ofChar? (fun column => (⟨number, column⟩ : Position)) start text).Pairwise
      fun brace other => brace.2.Before other.2 := by
  induction text generalizing start with
  | nil => exact List.Pairwise.nil
  | cons c text ih =>
    rw [placed_cons, List.pairwise_append]
    refine ⟨?_, ih (start + 1), ?_⟩
    · cases Brace.ofChar? c <;> simp
    · intro brace hbrace other hother
      obtain ⟨hline, hcolumn⟩ := mem_placed hother
      obtain ⟨found, -, rfl⟩ := Option.map_eq_some_iff.mp (Option.mem_toList.mp hbrace)
      refine Or.inr ⟨hline.symm, ?_⟩
      simp only
      omega

theorem flatMap_braces_increase (first : Nat) (lines : List Bytes) :
    ((Reader.numbered first lines).flatMap braces).Pairwise
      fun brace other => brace.2.Before other.2 := by
  rw [List.pairwise_flatMap]
  refine ⟨fun line _ => braces_increase line.number 0 line.text, ?_⟩
  refine (Reader.numbered_increase first lines).imp ?_
  intro line later hlater brace hbrace other hother
  refine Or.inl ?_
  rw [(mem_placed hbrace).1, (mem_placed hother).1]
  exact Int.ofNat_lt.mpr hlater

end Line

/-- The braces of a text in order, each at its position. -/
def placedBraces (content : Bytes) : List (Brace × Position) :=
  placed Brace.ofByte? (positionAt content) 0 content

theorem placedBraces_increase (content : Bytes) :
    (placedBraces content).Pairwise fun brace other => brace.2.Before other.2 := by
  rw [placedBraces, ← flatMap_braces_lines]
  exact Line.flatMap_braces_increase 1 _

theorem map_fst_placedBraces (content : Bytes) :
    (placedBraces content).map Prod.fst = content.filterMap Brace.ofByte? := by
  suffices h : ∀ start, (placed Brace.ofByte? (positionAt content) start content).map Prod.fst =
      content.filterMap Brace.ofByte? from h 0
  generalize positionAt content = place
  induction content with
  | nil => exact fun _ => rfl
  | cons b content ih =>
    intro start
    rw [placed_cons, List.map_append, ih, List.filterMap_cons]
    cases Brace.ofByte? b <;> rfl

theorem Report.ofContent_eq (filename content : Bytes) :
    (Report.ofContent filename content).extraClosing = (ofWord (placedBraces content)).extra ∧
      (Report.ofContent filename content).unclosed =
        (ofWord (placedBraces content)).waiting.map OpenBrace.at := by
  simp only [Report.ofContent, placedBraces, flatMap_braces_lines]
  exact ⟨trivial, trivial⟩

/-! ## The findings of a scan -/

/-- A scan that reads its source to the end reports the braces that keep its text from being
balanced.  The text is a balanced word, the extra closing braces and then the unclosed ones,
each with a balanced word behind it; every way to take it apart like this has the same braces
between the balanced words; and nothing is reported exactly if the grammar derives the braces
of the text. -/
theorem scan_recognises_balanced_nesting (source : Source) (filename : Bytes)
    (listening : Bool) (h : source.outcome = none) :
    let word := placedBraces source.content
    ∃ report, (source.scan filename listening).result = .ok report ∧
      word.Pairwise (fun brace other => brace.2.Before other.2) ∧
      (∃ parts : Factorisation word,
        parts.closings.map Prod.fst = report.extraClosing ∧
          parts.openings.map (fun part => OpenBrace.at part.1) = report.unclosed) ∧
      (∀ closing ∈ report.extraClosing, ∀ opening ∈ report.unclosed,
        closing.Before opening.position) ∧
      (∀ parts others : Factorisation word, parts.explicit = others.explicit) ∧
      (report.extraClosing = [] ∧ report.unclosed = [] ↔
        Balanced (source.content.filterMap Brace.ofByte?)) := by
  intro word
  obtain ⟨hextra, hunclosed⟩ := Report.ofContent_eq filename source.content
  obtain ⟨parts⟩ := Factorisation.nonempty word
  have hclosings : parts.closings.map Prod.fst = (ofWord word).extra :=
    congrArg Unmatched.extra parts.explicit_eq
  have hopenings : parts.openings.map Prod.fst = (ofWord word).waiting :=
    congrArg Unmatched.waiting parts.explicit_eq
  have hopenings' : parts.openings.map (fun part => OpenBrace.at part.1) =
      (ofWord word).waiting.map OpenBrace.at := by
    rw [← hopenings, List.map_map]
    rfl
  refine ⟨_, Source.scan_result h filename listening, placedBraces_increase _, ?_, ?_, ?_, ?_⟩
  · rw [hextra, hunclosed]
    exact ⟨parts, hclosings, hopenings'⟩
  · rw [hextra, hunclosed, ← hclosings, ← hopenings']
    have hbefore := parts.closings_before_openings (placedBraces_increase source.content)
    simp only [List.forall_mem_map]
    exact hbefore
  · intro parts others
    rw [parts.explicit_eq, others.explicit_eq]
  · rw [hextra, hunclosed, List.map_eq_nil_iff, ← map_fst_placedBraces, balanced_iff,
      Unmatched.eq_empty_iff]

/-- The second closing brace has no partner, nor has the first brace of the second line. -/
theorem scan_recognises_balanced_nesting_broken :
    let source := Source.ofContent [0x7B, 0x7D, 0x7D, lf, 0x7B, 0x7B, 0x7D]
    source.outcome = none ∧
      ∃ report, (source.scan [] true).result = .ok report ∧
        report.extraClosing = [⟨1, 2⟩] ∧ report.unclosed = [OpenBrace.at ⟨2, 0⟩] ∧
        (∃ parts : Factorisation (placedBraces source.content),
          parts.explicit = ⟨[⟨1, 2⟩], [⟨2, 0⟩]⟩) ∧
        ¬ Balanced (source.content.filterMap Brace.ofByte?) := by
  intro source
  have houtcome : source.outcome = none := by decide
  obtain ⟨report, hresult, -, ⟨parts, hclosings, -⟩, -, -, hbalanced⟩ :=
    scan_recognises_balanced_nesting source [] true houtcome
  have hreport := Source.scan_result houtcome [] true
  rw [hresult] at hreport
  cases hreport
  have hextra : (Report.ofContent [] source.content).extraClosing = [⟨1, 2⟩] := by
    decide +kernel
  refine ⟨houtcome, _, hresult, hextra, by decide +kernel, ⟨parts, ?_⟩, ?_⟩
  · rw [parts.explicit_eq]
    decide +kernel
  · intro hderived
    have hnil := (hbalanced.mpr hderived).1
    rw [hextra] at hnil
    cases hnil

end BraceBalance
