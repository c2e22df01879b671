/-
  Declarations in a text that goes on.

  A line that breaks off is searched for a declaration as it stands.  What is found in the
  part stays found when the rest of the line arrives: the parenthesis that completes a
  declaration site ends every name that starts in front of it, so neither the site nor the
  name that is reported for it can change any more (`detect?_append`).
-/
import BraceBalance.Declaration
import BraceBalance.Proofs.Run
import Mathlib.Data.List.Basic
import Mathlib.Data.List.TakeWhile

set_option autoImplicit false

namespace BraceBalance.Declaration

open Unicode

/-! ## A keyword with its name -/

/-- No word character is a blank. -/
theorem isBlank_of_isWord {c : Char} (h : isWord c = true) : isBlank c = false := by
  have hordered : blankRanges.Pairwise fun a b => a.1 ≤ b.1 := by decide
  have htable : ∀ range ∈ blankRanges, ∀ index < range.2 + 1 - range.1,
      range.1 + index ≠ '_'.toNat ∧ inRanges (range.1 + index) letterRanges = false ∧
        inRanges (range.1 + index) numberRanges = false := by
    decide +kernel
  rw [← Bool.not_eq_true, isBlank, inRanges_eq_true_iff hordered]
  rintro ⟨range, hrange, hlo, hhi⟩
  have hentry := htable range hrange (c.toNat - range.1) (by omega)
  rw [Nat.add_sub_cancel' hlo] at hentry
  have hunderscore : c ≠ '_' := by
    rintro rfl
    exact hentry.1 rfl
  simp [isWord, isLetter, isNumber, hentry, hunderscore] at h

/-- A text starts with the keyword and a name exactly if it is put together from the keyword,
blanks, the name and a rest that does not carry the name on. -/
theorem namedAt?_eq_some_iff {text name rest : List Char} :
    namedAt? text = some (name, rest) ↔
      ∃ blanks, text = keyword ++ blanks ++ name ++ rest ∧ IsRun isBlank blanks ∧
        IsRun isWord name ∧ EndsRun isWord rest := by
  unfold namedAt?
  constructor
  · intro h
    split at h
    · cases h
    · rename_i behind hbehind
      simp only [Option.ite_none_left_eq_some, Bool.or_eq_true, not_or, List.isEmpty_iff,
        Option.some.injEq, Prod.mk.injEq] at h
      obtain ⟨⟨hblanks, hname⟩, rfl, rfl⟩ := h
      refine ⟨behind.takeWhile isBlank, ?_, ⟨hblanks, fun c => List.mem_takeWhile_imp⟩,
        ⟨hname, fun c => List.mem_takeWhile_imp⟩, endsRun_dropWhile _⟩
      rw [List.append_assoc, List.takeWhile_append_dropWhile, List.append_assoc,
        List.takeWhile_append_dropWhile]
      exact (List.isPrefixOf?_eq_some_iff_append_eq.mp hbehind).symm
  · rintro ⟨blanks, rfl, hblanks, hname, hrest⟩
    have hkeyword : keyword.isPrefixOf? (keyword ++ blanks ++ name ++ rest) =
        some (blanks ++ (name ++ rest)) := by
      rw [List.isPrefixOf?_eq_some_iff_append_eq, List.append_assoc, List.append_assoc]
    have hstart : EndsRun isBlank (name ++ rest) := by
      intro c hc
      rw [List.head?_append_of_ne_nil name hname.nonempty] at hc
      exact isBlank_of_isWord (hname.passes c (List.mem_of_head? hc))
    obtain ⟨htakeBlanks, hdropBlanks⟩ := takeWhile_run hblanks.passes hstart
    obtain ⟨htakeName, hdropName⟩ := takeWhile_run hname.passes hrest
    have hnone : ¬ (blanks.isEmpty || name.isEmpty) = true := by
      simp [hblanks.nonempty, hname.nonempty]
    simp only [hkeyword, htakeBlanks, hdropBlanks, htakeName, hdropName]
    rw [if_neg hnone]

/-! ## The parenthesis ends what stands in front of it -/

theorem paren_notMem {blanks name : List Char} (hblanks : IsRun isBlank blanks)
    (hname : IsRun isWord name) : '(' ∉ keyword ++ blanks ++ name := by
  rw [List.mem_append, List.mem_append, not_or, not_or]
  refine ⟨⟨by decide, fun h => ?_⟩, fun h => ?_⟩
  · exact absurd (hblanks.passes _ h) (by decide)
  · exact absurd (hname.passes _ h) (by decide +kernel)

/-- In a text that holds a parenthesis, whether it starts with a named keyword does not
depend on how it goes on. -/
theorem namedAt?_append {text : List Char} (hparen : '(' ∈ text) (more : List Char) :
    namedAt? (text ++ more) = (namedAt? text).map fun found => (found.1, found.2 ++ more) := by
  have hkeep : ∀ name rest, namedAt? text = some (name, rest) →
      namedAt? (text ++ more) = some (name, rest ++ more) := by
    intro name rest h
    obtain ⟨blanks, rfl, hblanks, hname, hrest⟩ := namedAt?_eq_some_iff.mp h
    have hne : rest ≠ [] := by
      rintro rfl
      rw [List.append_nil] at hparen
      exact paren_notMem hblanks hname hparen
    refine namedAt?_eq_some_iff.mpr ⟨blanks, by simp, hblanks, hname, ?_⟩
    rwa [EndsRun, List.head?_append_of_ne_nil rest hne]
  cases hnamed : namedAt? text with
  | some found => exact hkeep found.1 found.2 hnamed
  | none =>
    rw [Option.map_none, Option.eq_none_iff_forall_ne_some]
    rintro ⟨name, rest⟩ h
    obtain ⟨blanks, heq, hblanks, hname, hrest⟩ := namedAt?_eq_some_iff.mp h
    rcases List.append_eq_append_iff.mp heq with ⟨inside, hfront, -⟩ | ⟨inside, htext, hmore⟩
    · -- The name would reach past the parenthesis.
      exact paren_notMem hblanks hname (hfront ▸ List.mem_append_left inside hparen)
    · have hhead : ∀ c ∈ inside.head?, isWord c = false := by
        intro c hc
        refine hrest c ?_
        rw [hmore, List.head?_append, Option.mem_def.mp hc]
        rfl
      have hsome := namedAt?_eq_some_iff.mpr ⟨blanks, htext, hblanks, hname, hhead⟩
      rw [hnamed] at hsome
      cases hsome

theorem startsAt_iff {text : List Char} :
    startsAt text = true ↔
      ∃ name rest, namedAt? text = some (name, rest) ∧
        (rest.dropWhile isBlank).head? = some '(' := by
  unfold startsAt
  cases namedAt? text with
  | none => simp
  | some found =>
    obtain ⟨name, rest⟩ := found
    simp

theorem paren_mem_of_startsAt {text : List Char} (h : startsAt text = true) : '(' ∈ text := by
  obtain ⟨name, rest, hnamed, hparen⟩ := startsAt_iff.mp h
  obtain ⟨blanks, rfl, -, -, -⟩ := namedAt?_eq_some_iff.mp hnamed
  exact List.mem_append_right _ (List.dropWhile_subset _ (List.mem_of_head? hparen))

theorem startsAt_append {text : List Char} (h : startsAt text = true) (more : List Char) :
    startsAt (text ++ more) = true := by
  obtain ⟨name, rest, hnamed, hparen⟩ := startsAt_iff.mp h
  refine startsAt_iff.mpr ⟨name, rest ++ more, ?_, ?_⟩
  · rw [namedAt?_append (paren_mem_of_startsAt h), hnamed]
    rfl
  · obtain ⟨behind, hbehind⟩ := List.head?_eq_some_iff.mp hparen
    rw [List.dropWhile_append, hbehind]
    rfl

/-! ## Searching a text that goes on -/

/-- A text holds a declaration site if it starts with one, or holds one behind its first
character. -/
theorem occursBehind_cons_iff {inWord : Bool} {c : Char} {rest : List Char} :
    occursBehind inWord (c :: rest) = true ↔
      (inWord = false ∧ startsAt (c :: rest) = true) ∨ occursBehind (isWord c) rest = true := by
  rw [occursBehind]
  split
  · rename_i hstart
    simp only [Bool.and_eq_true, Bool.not_eq_true'] at hstart
    exact iff_of_true rfl (Or.inl hstart)
  · rename_i hstart
    simp only [Bool.and_eq_true, Bool.not_eq_true'] at hstart
    rw [or_iff_right hstart]

theorem paren_mem_of_occursBehind {inWord : Bool} {text : List Char}
    (h : occursBehind inWord text = true) : '(' ∈ text := by
  induction text generalizing inWord with
  | nil => cases h
  | cons c rest ih =>
    rcases occursBehind_cons_iff.mp h with ⟨-, hstart⟩ | hrest
    · exact paren_mem_of_startsAt hstart
    · exact List.mem_cons_of_mem c (ih hrest)

theorem occursBehind_append {inWord : Bool} {text : List Char}
    (h : occursBehind inWord text = true) (more : List Char) :
    occursBehind inWord (text ++ more) = true := by
  induction text generalizing inWord with
  | nil => cases h
  | cons c rest ih =>
    rw [List.cons_append, occursBehind]
    rcases occursBehind_cons_iff.mp h with ⟨hword, hstart⟩ | hrest
    · have hlonger := startsAt_append hstart more
      rw [List.cons_append] at hlonger
      rw [hword, hlonger]
      rfl
    · rw [ih hrest, ite_self]

/-- A text that holds a declaration site has a name to report, and it is the name that every
longer text has to report. -/
theorem name?_of_occursBehind {inWord : Bool} {text : List Char}
    (h : occursBehind inWord text = true) :
    ∃ name, name? text = some name ∧ ∀ more, name? (text ++ more) = some name := by
  induction text generalizing inWord with
  | nil => cases h
  | cons c rest ih =>
    have hnamedAt : ∀ more, namedAt? (c :: (rest ++ more)) =
        (namedAt? (c :: rest)).map fun found => (found.1, found.2 ++ more) :=
      namedAt?_append (paren_mem_of_occursBehind h)
    cases hnamed : namedAt? (c :: rest) with
    | some found =>
      refine ⟨found.1, ?_, ?_⟩
      · rw [name?, hnamed]
      · intro more
        rw [List.cons_append, name?, hnamedAt, hnamed]
        rfl
    | none =>
      -- No site starts here, so there is one further on.
      have hrest : occursBehind (isWord c) rest = true := by
        rcases occursBehind_cons_iff.mp h with ⟨-, hstart⟩ | hrest
        · obtain ⟨name, behind, hsome, -⟩ := startsAt_iff.mp hstart
          rw [hnamed] at hsome
          cases hsome
        · exact hrest
      obtain ⟨name, hname, hlonger⟩ := ih hrest
      refine ⟨name, ?_, ?_⟩
      · rw [name?, hnamed]
        exact hname
      · intro more
        rw [List.cons_append, name?, hnamedAt, hnamed]
        exact hlonger more

theorem isRun_of_name? {text name : List Char} (h : name? text = some name) :
    IsRun isWord name := by
  induction text with
  | nil => cases h
  | cons c rest ih =>
    rw [name?] at h
    split at h
    · rename_i found behind hnamed
      obtain ⟨blanks, -, -, hname, -⟩ := namedAt?_eq_some_iff.mp hnamed
      cases h
      exact hname
    · exact ih h

/-- The name that is reported for a text is a run of word characters. -/
theorem isRun_of_detect? {text name : List Char} (h : detect? text = some name) :
    IsRun isWord name := by
  unfold detect? at h
  split at h
  · exact isRun_of_name? h
  · cases h

/-- What is detected in a text is detected in every longer text. -/
theorem detect?_append {text name : List Char} (h : detect? text = some name)
    (more : List Char) : detect? (text ++ more) = some name := by
  unfold detect? at h ⊢
  split at h
  · rename_i hoccurs
    obtain ⟨found, hfound, hlonger⟩ := name?_of_occursBehind hoccurs
    rw [hfound] at h
    cases h
    rw [occursIn, occursBehind_append hoccurs, if_pos rfl, hlonger]
  · cases h

end BraceBalance.Declaration
