/-
  The grammar of declaration sites.

  A text is searched from left to right, and at each place keyword, blanks and name are read
  as far as they go.  The grammar knows neither order nor length: a text declares a function
  if it can be cut somewhere into something that does not end in a word, the keyword, blanks,
  a name, perhaps more blanks, a parenthesis and anything else (`Declares`).  Word characters,
  blanks and the parenthesis exclude each other, so a site can be cut in one way only and the
  search neither misses nor invents one (`occursIn_iff_declares`).
-/
import BraceBalance.Proofs.Declaration
import BraceBalance.Proofs.Utf8

set_option autoImplicit false

namespace BraceBalance

/-! ## Character classes as sets of code points -/

namespace Unicode

/-- A character whose code point lies in one of the ranges of a table. -/
def InTable (table : List (Nat × Nat)) (c : Char) : Prop :=
  ∃ range ∈ table, range.1 ≤ c.toNat ∧ c.toNat ≤ range.2

/-- The code points with the property White_Space. -/
def whiteSpace : List Nat := [
  0x09, 0x0A, 0x0B, 0x0C, 0x0D, 0x20, 0x85, 0xA0, 0x1680, 0x2000, 0x2001, 0x2002, 0x2003,
  0x2004, 0x2005, 0x2006, 0x2007, 0x2008, 0x2009, 0x200A, 0x2028, 0x2029, 0x202F, 0x205F,
  0x3000]

/-- It is enough to compare neighbours: a table in increasing order is searched correctly. -/
theorem inRanges_iff_inTable {table : List (Nat × Nat)}
    (h : table.IsChain fun a b => a.1 ≤ b.1) (c : Char) :
    inRanges c.toNat table = true ↔ InTable table c := by
  let lower : Nat × Nat → Nat × Nat → Prop := fun a b => a.1 ≤ b.1
  have : Trans lower lower lower := ⟨Nat.le_trans⟩
  exact inRanges_eq_true_iff (List.isChain_iff_pairwise.mp h)

theorem isWord_iff (c : Char) :
    isWord c = true ↔ InTable letterRanges c ∨ InTable numberRanges c ∨ c = '_' := by
  have hletters : letterRanges.IsChain fun a b => a.1 ≤ b.1 := by decide +kernel
  have hnumbers : numberRanges.IsChain fun a b => a.1 ≤ b.1 := by decide +kernel
  unfold isWord isLetter isNumber
  rw [Bool.or_eq_true, Bool.or_eq_true, inRanges_iff_inTable hletters,
    inRanges_iff_inTable hnumbers, decide_eq_true_eq, or_assoc, or_comm, or_assoc]

theorem isBlank_iff (c : Char) :
    isBlank c = true ↔ c.toNat ∈ whiteSpace ∨ 0x1C ≤ c.toNat ∧ c.toNat ≤ 0x1F := by
  have hblanks : blankRanges.IsChain fun a b => a.1 ≤ b.1 := by decide
  unfold isBlank
  rw [inRanges_iff_inTable hblanks]
  unfold InTable blankRanges whiteSpace
  simp only [List.mem_cons, List.not_mem_nil, or_false, exists_eq_or_imp, exists_eq_left]
  omega

end Unicode

namespace Declaration

open Unicode

/-! ## Sites -/

/-- A text that starts with the keyword, blanks, the name, perhaps more blanks and a
parenthesis. -/
def StartsSite (name text : List Char) : Prop :=
  ∃ blanks gap after, text = keyword ++ blanks ++ name ++ gap ++ '(' :: after ∧
    IsRun isBlank blanks ∧ IsRun isWord name ∧ ∀ c ∈ gap, isBlank c = true

/-- A text that holds a declaration site: it can be cut into something that does not end in a
word character, the keyword, blanks, a name, perhaps more blanks, a parenthesis, and the rest. -/
def Declares (text : List Char) : Prop :=
  ∃ before blanks name gap after,
    text = before ++ keyword ++ blanks ++ name ++ gap ++ '(' :: after ∧
      (∀ c ∈ before.getLast?, isWord c = false) ∧
      IsRun isBlank blanks ∧ IsRun isWord name ∧ ∀ c ∈ gap, isBlank c = true

/-- A parenthesis comes next, with at most blanks in front of it. -/
def Opens (text : List Char) : Prop :=
  ∃ gap after, text = gap ++ '(' :: after ∧ ∀ c ∈ gap, isBlank c = true

theorem opens_iff {text : List Char} :
    Opens text ↔ (text.dropWhile isBlank).head? = some '(' := by
  constructor
  · rintro ⟨gap, after, rfl, hgap⟩
    have hparen : isBlank '(' = false := by decide
    rw [(takeWhile_run hgap (endsRun_cons hparen after)).2, List.head?_cons]
  · intro h
    obtain ⟨after, hafter⟩ := List.head?_eq_some_iff.mp h
    refine ⟨text.takeWhile isBlank, after, ?_, fun c => List.mem_takeWhile_imp⟩
    rw [← hafter, List.takeWhile_append_dropWhile]

/-- What leads to a parenthesis does not carry a name on. -/
theorem Opens.endsRun {text : List Char} (h : Opens text) : EndsRun isWord text := by
  obtain ⟨gap, after, rfl, hgap⟩ := h
  cases gap with
  | nil =>
    apply endsRun_cons
    decide +kernel
  | cons c gap =>
    apply endsRun_cons
    rw [← Bool.not_eq_true]
    intro hword
    have hblank := hgap c List.mem_cons_self
    rw [isBlank_of_isWord hword] at hblank
    cases hblank

/-- A site is a named keyword whose name leads to a parenthesis. -/
theorem startsSite_iff {name text : List Char} :
    StartsSite name text ↔ ∃ rest, namedAt? text = some (name, rest) ∧ Opens rest := by
  constructor
  · rintro ⟨blanks, gap, after, rfl, hblanks, hname, hgap⟩
    -- The name is read to its end, since neither a blank nor the parenthesis belongs to it.
    have hopens : Opens (gap ++ '(' :: after) := ⟨gap, after, rfl, hgap⟩
    refine ⟨gap ++ '(' :: after, namedAt?_eq_some_iff.mpr ?_, hopens⟩
    exact ⟨blanks, List.append_assoc _ gap _, hblanks, hname, hopens.endsRun⟩
  · rintro ⟨rest, hnamed, gap, after, rfl, hgap⟩
    obtain ⟨blanks, rfl, hblanks, hname, -⟩ := namedAt?_eq_some_iff.mp hnamed
    exact ⟨blanks, gap, after, (List.append_assoc _ gap _).symm, hblanks, hname, hgap⟩

theorem startsAt_iff_startsSite {text : List Char} :
    startsAt text = true ↔ ∃ name, StartsSite name text := by
  simp only [startsAt_iff, startsSite_iff, opens_iff]

/-! ## Sites in a text -/

/-- A declaration site at an index of a text: no word character stands in front of it. -/
structure SiteAt (text : List Char) (index : Nat) (name : List Char) : Prop where
  boundary : ∀ c ∈ (text.take index).getLast?, isWord c = false
  starts : StartsSite name (text.drop index)

theorem declares_iff_siteAt {text : List Char} :
    Declares text ↔ ∃ index name, SiteAt text index name := by
  constructor
  · rintro ⟨before, blanks, name, gap, after, rfl, hbefore, hsite⟩
    refine ⟨before.length, name, ?_, blanks, gap, after, ?_, hsite⟩
    · simpa [List.append_assoc] using hbefore
    · simp [List.append_assoc]
  · rintro ⟨index, name, hbefore, blanks, gap, after, hdrop, hsite⟩
    refine ⟨text.take index, blanks, name, gap, after, ?_, hbefore, hsite⟩
    have htext := List.take_append_drop index text
    rw [hdrop] at htext
    simpa [List.append_assoc] using htext.symm

/-- The search stops at the sites of a text that no word character precedes; in front of the
text stands one if `inWord` says so. -/
theorem occursBehind_iff {inWord : Bool} {text : List Char} :
    occursBehind inWord text = true ↔
      ∃ index, ((text.take index).map isWord).getLastD inWord = false ∧
        startsAt (text.drop index) = true := by
  induction text generalizing inWord with
  | nil => simp [occursBehind, startsAt, namedAt?, keyword, List.isPrefixOf?]
  | cons c rest ih =>
    rw [occursBehind_cons_iff, ih]
    constructor
    · rintro (⟨hword, hstart⟩ | ⟨index, hword, hstart⟩)
      · exact ⟨0, hword, hstart⟩
      · exact ⟨index + 1, by simpa [List.getLast?_cons] using hword, hstart⟩
    · rintro ⟨index, hword, hstart⟩
      cases index with
      | zero => exact Or.inl ⟨hword, hstart⟩
      | succ index => exact Or.inr ⟨index, by simpa [List.getLast?_cons] using hword, hstart⟩

theorem getLastD_map_isWord_iff (text : List Char) :
    (text.map isWord).getLastD false = false ↔ ∀ c ∈ text.getLast?, isWord c = false := by
  rw [List.getLastD_eq_getLast?, List.getLast?_map]
  cases text.getLast? with
  | none => simp
  | some c => simp

theorem occursIn_iff_declares {text : List Char} : occursIn text = true ↔ Declares text := by
  unfold occursIn
  simp only [declares_iff_siteAt, occursBehind_iff, getLastD_map_isWord_iff,
    startsAt_iff_startsSite]
  constructor
  · rintro ⟨index, hboundary, name, hstarts⟩
    exact ⟨index, name, hboundary, hstarts⟩
  · rintro ⟨index, name, hboundary, hstarts⟩
    exact ⟨index, hboundary, name, hstarts⟩

/-- Whether a text holds a declaration site can be computed by searching it. -/
instance : DecidablePred Declares := fun _ => decidable_of_iff _ occursIn_iff_declares

/-- The search finds a declaration site exactly in the texts of the grammar.  Of a byte string
the grammar sees the characters, U+FFFD standing for each byte that belongs to none; word
characters are the letters, the numbers and the underscore, and blanks are white space and the
four information separators. -/
theorem occursIn_recognises_grammar :
    (∀ text, occursIn text = true ↔ Declares text) ∧
      (∀ bytes, occursIn (Utf8.replacing bytes) = true ↔
        ∃ text, Utf8.Replaced bytes text ∧ Declares text) ∧
      (∀ c, isWord c = true ↔ InTable letterRanges c ∨ InTable numberRanges c ∨ c = '_') ∧
      ∀ c, isBlank c = true ↔ c.toNat ∈ whiteSpace ∨ 0x1C ≤ c.toNat ∧ c.toNat ≤ 0x1F := by
  refine ⟨fun text => occursIn_iff_declares, ?_, isWord_iff, isBlank_iff⟩
  intro bytes
  simp only [Utf8.replaced_iff, exists_eq_left]
  exact occursIn_iff_declares

end Declaration

end BraceBalance
