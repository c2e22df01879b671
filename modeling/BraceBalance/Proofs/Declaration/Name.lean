/-
  The name that is reported for a line.

  A line is searched twice: once for a declaration site and once for a name.  The second
  search stops at the first keyword that a name follows, in whatever word the keyword may
  stand and whatever follows the name (`name?_eq_some_iff`).  Every site is such a keyword, so
  the second search succeeds wherever the first one does, at the first site or in front of it,
  and the functions of a report are those of its lines with a declaration site, one for each.
-/
import BraceBalance.Proofs.Declaration.Grammar
import BraceBalance.Proofs.Findings
import Mathlib.Order.Bounds.Basic
import Mathlib.Order.Nat

set_option autoImplicit false

namespace BraceBalance

namespace Declaration

open Unicode

/-! ## Keywords with a name -/

/-- A text that starts with the keyword, at least one blank and a word character. -/
def StartsNamed (text : List Char) : Prop :=
  ∃ blanks c rest, text = keyword ++ blanks ++ c :: rest ∧ IsRun isBlank blanks ∧
    isWord c = true

/-- A text that starts with the keyword, a run of blanks and the name, neither run being any
longer, in front of the rest. -/
def ReadsName (text name rest : List Char) : Prop :=
  ∃ blanks, text = keyword ++ blanks ++ name ++ rest ∧
    (IsRun isBlank blanks ∧ EndsRun isBlank (name ++ rest)) ∧
    (IsRun isWord name ∧ EndsRun isWord rest)

theorem readsName_iff {text name rest : List Char} :
    ReadsName text name rest ↔ namedAt? text = some (name, rest) := by
  rw [namedAt?_eq_some_iff]
  constructor
  · rintro ⟨blanks, htext, ⟨hblanks, -⟩, hname, hrest⟩
    exact ⟨blanks, htext, hblanks, hname, hrest⟩
  · rintro ⟨blanks, htext, hblanks, hname, hrest⟩
    refine ⟨blanks, htext, ⟨hblanks, ?_⟩, hname, hrest⟩
    intro c hc
    rw [List.head?_append_of_ne_nil name hname.nonempty] at hc
    exact isBlank_of_isWord (hname.passes c (List.mem_of_head? hc))

/-- One word character makes a name: its run goes as far as it can. -/
theorem startsNamed_iff {text : List Char} :
    StartsNamed text ↔ ∃ name rest, ReadsName text name rest := by
  constructor
  · rintro ⟨blanks, c, rest, rfl, hblanks, hc⟩
    refine ⟨(c :: rest).takeWhile isWord, (c :: rest).dropWhile isWord, blanks, ?_,
      ⟨hblanks, ?_⟩, ⟨?_, fun d => List.mem_takeWhile_imp⟩, endsRun_dropWhile _⟩
    · rw [List.append_assoc _ (List.takeWhile _ _), List.takeWhile_append_dropWhile]
    · rw [List.takeWhile_append_dropWhile]
      exact endsRun_cons (isBlank_of_isWord hc) rest
    · rw [List.takeWhile_cons_of_pos hc]
      exact List.cons_ne_nil c _
  · rintro ⟨name, rest, blanks, rfl, ⟨hblanks, -⟩, hname, -⟩
    obtain ⟨c, name, rfl⟩ := List.exists_cons_of_ne_nil hname.nonempty
    refine ⟨blanks, c, name ++ rest, ?_, hblanks, hname.passes c List.mem_cons_self⟩
    rw [List.append_assoc _ (c :: name), List.cons_append]

/-! ## The first keyword with a name -/

/-- The least index of a text at which a keyword with a name starts. -/
def FirstNamed (text : List Char) : Nat → Prop :=
  IsLeast {index | StartsNamed (text.drop index)}

/-- The least index of a text at which a declaration site stands. -/
def FirstSite (text : List Char) : Nat → Prop :=
  IsLeast {index | ∃ name, SiteAt text index name}

theorem not_startsNamed_of_namedAt? {text : List Char} (h : namedAt? text = none) :
    ¬ StartsNamed text := by
  simp [startsNamed_iff, readsName_iff, h]

theorem not_startsNamed_of_name? {text : List Char} (h : name? text = none) (index : Nat) :
    ¬ StartsNamed (text.drop index) := by
  induction text generalizing index with
  | nil =>
    rw [List.drop_nil]
    exact not_startsNamed_of_namedAt? rfl
  | cons c text ih =>
    rw [name?] at h
    split at h
    · cases h
    · rename_i hnamed
      cases index with
      | zero => exact not_startsNamed_of_namedAt? hnamed
      | succ index => exact ih h index

theorem firstNamed_of_name? {text name : List Char} (h : name? text = some name) :
    ∃ first rest, FirstNamed text first ∧ ReadsName (text.drop first) name rest := by
  induction text with
  | nil => cases h
  | cons c text ih =>
    rw [name?] at h
    split at h
    · rename_i found rest hnamed
      cases h
      have hreads : ReadsName (c :: text) name rest := readsName_iff.mpr hnamed
      exact ⟨0, rest, ⟨startsNamed_iff.mpr ⟨name, rest, hreads⟩, fun _ _ => Nat.zero_le _⟩, hreads⟩
    · rename_i hnamed
      obtain ⟨first, rest, hfirst, hreads⟩ := ih h
      refine ⟨first + 1, rest, ⟨hfirst.1, ?_⟩, hreads⟩
      intro index hindex
      cases index with
      | zero => exact absurd hindex (not_startsNamed_of_namedAt? hnamed)
      | succ index => exact Nat.succ_le_succ (hfirst.2 hindex)

/-- The search for a name reads it behind the first keyword that a name follows. -/
theorem name?_eq_some_iff {text name : List Char} :
    name? text = some name ↔
      ∃ first rest, FirstNamed text first ∧ ReadsName (text.drop first) name rest := by
  refine ⟨firstNamed_of_name?, ?_⟩
  rintro ⟨first, rest, hfirst, hreads⟩
  cases hname : name? text with
  | none => exact absurd hfirst.1 (not_startsNamed_of_name? hname first)
  | some found =>
    -- There is one least index, and one name to read there.
    obtain ⟨first', rest', hfirst', hreads'⟩ := firstNamed_of_name? hname
    rw [IsLeast.unique hfirst' hfirst, readsName_iff] at hreads'
    rw [readsName_iff, hreads'] at hreads
    cases hreads
    rfl

theorem name?_isSome_iff {text : List Char} :
    (∃ name, name? text = some name) ↔ ∃ index, StartsNamed (text.drop index) := by
  constructor
  · rintro ⟨name, hname⟩
    obtain ⟨first, -, hfirst, -⟩ := firstNamed_of_name? hname
    exact ⟨first, hfirst.1⟩
  · rintro ⟨index, hindex⟩
    rw [← Option.ne_none_iff_exists']
    intro hnone
    exact not_startsNamed_of_name? hnone index hindex

/-! ## Names and sites -/

/-- A site is a keyword whose name leads to a parenthesis. -/
theorem siteAt_iff {text : List Char} {index : Nat} {name : List Char} :
    SiteAt text index name ↔
      (∀ c ∈ (text.take index).getLast?, isWord c = false) ∧
        ∃ rest, ReadsName (text.drop index) name rest ∧ Opens rest := by
  simp only [readsName_iff, ← startsSite_iff]
  exact ⟨fun h => ⟨h.boundary, h.starts⟩, fun h => ⟨h.1, h.2⟩⟩

theorem SiteAt.startsNamed {text : List Char} {index : Nat} {name : List Char}
    (h : SiteAt text index name) : StartsNamed (text.drop index) := by
  obtain ⟨-, rest, hreads, -⟩ := siteAt_iff.mp h
  exact startsNamed_iff.mpr ⟨name, rest, hreads⟩

theorem detect?_eq_some_iff {text name : List Char} :
    detect? text = some name ↔ occursIn text = true ∧ name? text = some name := by
  unfold detect?
  split
  · rename_i hoccurs
    simp [hoccurs]
  · rename_i hoccurs
    simp [hoccurs]

/-- The search for a name never fails behind a successful search for a site. -/
theorem detect?_isSome_iff {text : List Char} :
    (∃ name, detect? text = some name) ↔ occursIn text = true := by
  simp only [detect?_eq_some_iff, exists_and_left, and_iff_left_iff_imp]
  intro hoccurs
  obtain ⟨index, name, hsite⟩ := declares_iff_siteAt.mp (occursIn_iff_declares.mp hoccurs)
  exact name?_isSome_iff.mpr ⟨index, hsite.startsNamed⟩

theorem exists_firstSite {text : List Char} (h : Declares text) : ∃ site, FirstSite text site := by
  classical
  exact ⟨_, Nat.isLeast_find (declares_iff_siteAt.mp h)⟩

/-- The name that is reported stands at the first site or in front of it.  In front of the
first site, the keyword is the end of a longer word or no parenthesis follows the name. -/
theorem name_before_site {text name rest : List Char} {first site : Nat}
    (hfirst : FirstNamed text first) (hreads : ReadsName (text.drop first) name rest)
    (hsite : FirstSite text site) :
    first ≤ site ∧ (first = site → ∀ written, SiteAt text site written → written = name) ∧
      (first < site →
        (∃ c ∈ (text.take first).getLast?, isWord c = true) ∨ ¬ Opens rest) := by
  obtain ⟨⟨siteName, hnamed⟩, hleast⟩ := hsite
  refine ⟨hfirst.2 hnamed.startsNamed, ?_, ?_⟩
  · rintro rfl written hwritten
    obtain ⟨-, rest', hreads', -⟩ := siteAt_iff.mp hwritten
    rw [readsName_iff] at hreads hreads'
    rw [hreads] at hreads'
    cases hreads'
    rfl
  · intro hlt
    by_contra hneither
    simp only [not_or, not_exists, not_and, not_not, Bool.not_eq_true] at hneither
    -- Otherwise the keyword in front would itself start a site.
    have hearlier : SiteAt text first name :=
      siteAt_iff.mpr ⟨hneither.1, rest, hreads, hneither.2⟩
    exact absurd (hleast ⟨name, hearlier⟩) (Nat.not_le.mpr hlt)

end Declaration

/-! ## The functions of a report -/

open Declaration Unicode

/-- A line and its entry among the functions of a report. -/
def Line.Lists (line : Line) (site : FunctionSite) : Prop :=
  site.line = line.number ∧
    ∃ name, detect? line.text = some name ∧ site.name = Utf8.encode name

theorem Line.site?_eq_some_iff {line : Line} {site : FunctionSite} :
    line.site? = some site ↔ line.Lists site := by
  unfold Line.site? Line.Lists
  rw [Option.map_eq_some_iff]
  constructor
  · rintro ⟨name, hname, rfl⟩
    exact ⟨rfl, name, hname, rfl⟩
  · rintro ⟨hline, name, hname, hsite⟩
    refine ⟨name, hname, ?_⟩
    rw [← hline, ← hsite]

theorem Line.site?_isSome_iff {line : Line} :
    (∃ site, line.site? = some site) ↔ Declares line.text := by
  rw [← occursIn_iff_declares, ← detect?_isSome_iff]
  simp [Line.site?]

/-- One entry for each line with a declaration site, in the order of the lines. -/
theorem forall₂_lists (lines : List Line) :
    List.Forall₂ Line.Lists (lines.filter fun line => Declares line.text)
      (lines.filterMap Line.site?) := by
  induction lines with
  | nil => exact List.Forall₂.nil
  | cons line lines ih =>
    cases hsite : line.site? with
    | none =>
      have hnone : ¬ Declares line.text := by
        rw [← Line.site?_isSome_iff, hsite]
        simp
      rw [List.filter_cons_of_neg (by simpa using hnone), List.filterMap_cons_none hsite]
      exact ih
    | some site =>
      have hsome : Declares line.text := Line.site?_isSome_iff.mp ⟨site, hsite⟩
      rw [List.filter_cons_of_pos (by simpa using hsome), List.filterMap_cons_some hsite]
      exact List.Forall₂.cons (Line.site?_eq_some_iff.mp hsite) ih

theorem functions_increase (first : Nat) (lines : List Bytes) :
    (((Reader.numbered first lines).filterMap Line.site?).map FunctionSite.line).Pairwise
      (· < ·) := by
  rw [List.pairwise_map]
  refine (Reader.numbered_increase first lines).filterMap _ ?_
  intro line later hlt site hsite other hother
  rw [(Line.site?_eq_some_iff.mp hsite).1, (Line.site?_eq_some_iff.mp hother).1]
  exact Int.ofNat_lt.mpr hlt

/-- The name of a text is the whole word behind the first keyword that a word follows at all.
A text with a declaration site always has one; it is the name of the first site unless such a
keyword stands in front of that site, which then ends a longer word or has no parenthesis
behind its name.  So a scan lists exactly one function for each line with a declaration site,
under increasing line numbers. -/
theorem detect_reports_first_name :
    (∀ text,
      ((∃ name, name? text = some name) ↔ ∃ index, StartsNamed (text.drop index)) ∧
      (∀ name, name? text = some name ↔
        ∃ first rest, FirstNamed text first ∧ ReadsName (text.drop first) name rest) ∧
      ((∃ name, detect? text = some name) ↔ occursIn text = true) ∧
      ∀ name, detect? text = some name →
        IsRun isWord name ∧
        ∃ first rest site, FirstNamed text first ∧ ReadsName (text.drop first) name rest ∧
          FirstSite text site ∧ first ≤ site ∧
          (first = site → ∀ written, SiteAt text site written → written = name) ∧
          (first < site →
            (∃ c ∈ (text.take first).getLast?, isWord c = true) ∨ ¬ Opens rest)) ∧
    ∀ (source : Source) (filename : Bytes) (listening : Bool), source.outcome = none →
      ∃ report, (source.scan filename listening).result = .ok report ∧
        List.Forall₂ Line.Lists
          ((Reader.ofSource source).lines.1.filter fun line => Declares line.text)
          report.functions ∧
        (report.functions.map FunctionSite.line).Pairwise (· < ·) := by
  refine ⟨fun text => ⟨name?_isSome_iff, fun name => name?_eq_some_iff, detect?_isSome_iff, ?_⟩,
    ?_⟩
  · intro name hdetect
    obtain ⟨hoccurs, hname⟩ := detect?_eq_some_iff.mp hdetect
    obtain ⟨first, rest, hfirst, hreads⟩ := name?_eq_some_iff.mp hname
    obtain ⟨site, hsite⟩ := exists_firstSite (occursIn_iff_declares.mp hoccurs)
    exact ⟨isRun_of_name? hname, first, rest, site, hfirst, hreads, hsite,
      name_before_site hfirst hreads hsite⟩
  · intro source filename listening hend
    refine ⟨_, Source.scan_result hend filename listening, ?_, functions_increase 1 _⟩
    rw [Reader.lines_ofSource]
    exact forall₂_lists _

/-- The first keyword is the end of a longer word; the line is listed under the name behind
it and not under that of its declaration. -/
theorem detect_reports_first_name_inside_word :
    let text := "xfunction g function f(".toList
    let source := Source.ofContent (Utf8.encode text)
    detect? text = some ['g'] ∧ source.outcome = none ∧
      (∃ first rest site, FirstNamed text first ∧ ReadsName (text.drop first) ['g'] rest ∧
        FirstSite text site ∧
        (first < site →
          (∃ c ∈ (text.take first).getLast?, isWord c = true) ∨ ¬ Opens rest)) ∧
      ∃ report, (source.scan [] true).result = .ok report ∧
        List.Forall₂ Line.Lists
          ((Reader.ofSource source).lines.1.filter fun line => Declares line.text)
          report.functions := by
  intro text source
  have hdetect : detect? text = some ['g'] := by decide +kernel
  have hend : source.outcome = none := by decide
  obtain ⟨hname, hscan⟩ := detect_reports_first_name
  obtain ⟨-, -, -, hdetected⟩ := hname text
  obtain ⟨-, first, rest, site, hfirst, hreads, hsite, -, -, hbefore⟩ := hdetected ['g'] hdetect
  obtain ⟨report, hreport, hlists, -⟩ := hscan source [] true hend
  exact ⟨hdetect, hend, ⟨first, rest, site, hfirst, hreads, hsite, hbefore⟩, report, hreport,
    hlists⟩

end BraceBalance
