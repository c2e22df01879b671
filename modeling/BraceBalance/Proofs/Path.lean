/-
  Clean paths and the names they are made of.

  Cleaning keeps a stack of components.  What it leaves are names, below which a relative path
  may climb (`Reduced`), and from such a stack nothing is taken away any more.  On an absolute
  path only names are left, so absolute clean paths and lists of names are two spellings of one
  thing (`Path.absolute`, `Path.kept`).  The parent of such a path drops its last name, and a
  name behind a slash adds one.
-/
import BraceBalance.Path
import BraceBalance.Proofs.Run
import Mathlib.Data.List.Induction

set_option autoImplicit false

namespace BraceBalance.Path

/-- A component that cleaning keeps as it is. -/
structure IsName (name : Bytes) : Prop where
  nonempty : name ≠ []
  not_dot : name ≠ dot
  not_dotDot : name ≠ dotDot
  slash_notMem : slash ∉ name

/-! ## Components -/

theorem split_ne_nil (path : Bytes) : split path ≠ [] := by
  cases path with
  | nil => simp [split]
  | cons b path =>
    rw [split, List.foldr_cons, splitByte.eq_def]
    split <;> split <;> simp

theorem split_slash_cons (path : Bytes) : split (slash :: path) = [] :: split path := by
  obtain ⟨component, rest, hsplit⟩ := List.exists_cons_of_ne_nil (split_ne_nil path)
  have hfold : path.foldr splitByte [[]] = component :: rest := hsplit
  rw [hsplit, split, List.foldr_cons, hfold, splitByte, if_pos rfl]

theorem split_cons {b : UInt8} (hb : b ≠ slash) {path component : Bytes} {rest : List Bytes}
    (hsplit : split path = component :: rest) : split (b :: path) = (b :: component) :: rest := by
  have hfold : path.foldr splitByte [[]] = component :: rest := hsplit
  rw [split, List.foldr_cons, hfold, splitByte, if_neg hb]

/-- A slash parts the components in front of it from those behind it. -/
theorem split_append_slash (front rest : Bytes) :
    split (front ++ slash :: rest) = split front ++ split rest := by
  induction front with
  | nil => exact split_slash_cons rest
  | cons b front ih =>
    rw [List.cons_append]
    by_cases hb : b = slash
    · rw [hb, split_slash_cons, split_slash_cons, ih]
      rfl
    · obtain ⟨component, more, hsplit⟩ := List.exists_cons_of_ne_nil (split_ne_nil front)
      rw [hsplit] at ih
      rw [split_cons hb ih, split_cons hb hsplit]
      rfl

theorem split_of_slash_notMem {component : Bytes} (h : slash ∉ component) :
    split component = [component] := by
  induction component with
  | nil => rfl
  | cons b component ih =>
    rw [List.mem_cons, not_or] at h
    exact split_cons (Ne.symm h.1) (ih h.2)

/-- Components are made of the other bytes of a path. -/
theorem mem_of_mem_split {path component : Bytes} (h : component ∈ split path) :
    ∀ b ∈ component, b ≠ slash ∧ b ∈ path := by
  induction path generalizing component with
  | nil =>
    rw [List.mem_singleton.mp h]
    simp
  | cons first path ih =>
    have hwider : ∀ {other}, other ∈ split path → ∀ b ∈ other, b ≠ slash ∧ b ∈ first :: path :=
      fun hother b hb => ⟨(ih hother b hb).1, List.mem_cons_of_mem first (ih hother b hb).2⟩
    by_cases hfirst : first = slash
    · rw [hfirst, split_slash_cons, List.mem_cons] at h
      rcases h with rfl | h
      · simp
      · exact hwider h
    · obtain ⟨front, rest, hsplit⟩ := List.exists_cons_of_ne_nil (split_ne_nil path)
      rw [hsplit] at hwider
      rw [split_cons hfirst hsplit, List.mem_cons] at h
      rcases h with rfl | h
      · exact List.forall_mem_cons.mpr
          ⟨⟨hfirst, List.mem_cons_self⟩, hwider List.mem_cons_self⟩
      · exact hwider (List.mem_cons_of_mem front h)

theorem split_join {components : List Bytes} (hne : components ≠ [])
    (hslash : ∀ component ∈ components, slash ∉ component) :
    split (join components) = components := by
  induction components with
  | nil => exact absurd rfl hne
  | cons first components ih =>
    rw [List.forall_mem_cons] at hslash
    unfold join at ih ⊢
    cases components with
    | nil =>
      rw [List.intercalate_singleton]
      exact split_of_slash_notMem hslash.1
    | cons second components =>
      rw [List.intercalate_cons_cons, List.append_assoc, List.singleton_append,
        split_append_slash, split_of_slash_notMem hslash.1, ih (List.cons_ne_nil _ _) hslash.2,
        List.singleton_append]

/-! ## What a component does to the stack -/

theorem keep_empty (rooted : Bool) (kept : List Bytes) : keep rooted kept [] = kept := by
  simp [keep]

theorem keep_dot (rooted : Bool) (kept : List Bytes) : keep rooted kept dot = kept := by
  simp [keep]

theorem keep_name {name : Bytes} (h : IsName name) (rooted : Bool) (kept : List Bytes) :
    keep rooted kept name = name :: kept := by
  unfold keep
  rw [if_neg (by simp [h.nonempty, h.not_dot]), if_neg h.not_dotDot]

theorem keep_nil_dotDot (rooted : Bool) :
    keep rooted [] dotDot = if rooted then [] else [dotDot] := by
  simp [keep, dot, dotDot]

theorem keep_cons_dotDot (rooted : Bool) (last : Bytes) (kept : List Bytes) :
    keep rooted (last :: kept) dotDot =
      if last = dotDot then dotDot :: last :: kept else kept := by
  simp [keep, dot, dotDot]

/-- The way back from a name leads to where the name was entered. -/
theorem keep_name_dotDot {name : Bytes} (h : IsName name) (rooted : Bool) (kept : List Bytes) :
    keep rooted (keep rooted kept name) dotDot = kept := by
  rw [keep_name h, keep_cons_dotDot, if_neg h.not_dotDot]

/-- Below the root, `..` takes a name away. -/
theorem keep_dotDot {place : List Bytes} (h : dotDot ∉ place) :
    keep true place.reverse dotDot = place.dropLast.reverse := by
  rcases List.eq_nil_or_concat place with rfl | ⟨front, last, rfl⟩
  · exact keep_nil_dotDot true
  · rw [List.concat_eq_append] at h ⊢
    have hlast : last ≠ dotDot := by
      rintro rfl
      exact h (by simp)
    rw [List.reverse_append, List.reverse_singleton, List.singleton_append, keep_cons_dotDot,
      if_neg hlast, List.dropLast_concat]

/-! ## What cleaning leaves -/

/-- A stack of components, latest first, that cleaning can leave: names, and below them, for a
path that is not rooted, the components that climb. -/
inductive Reduced (rooted : Bool) : List Bytes → Prop where
  | nil : Reduced rooted []
  | climb {stack : List Bytes} : rooted = false → (∀ component ∈ stack, component = dotDot) →
      Reduced rooted stack → Reduced rooted (dotDot :: stack)
  | name {name : Bytes} {stack : List Bytes} : IsName name → Reduced rooted stack →
      Reduced rooted (name :: stack)

section Reduced

variable {rooted : Bool} {stack : List Bytes}

theorem Reduced.keep_dotDot (h : Reduced rooted stack) :
    Reduced rooted (keep rooted stack dotDot) := by
  cases h with
  | nil =>
    rw [keep_nil_dotDot]
    cases rooted with
    | true => exact Reduced.nil
    | false => exact Reduced.climb rfl (by simp) Reduced.nil
  | climb hrooted hclimb hstack =>
    rw [keep_cons_dotDot, if_pos rfl]
    refine Reduced.climb hrooted ?_ (Reduced.climb hrooted hclimb hstack)
    exact List.forall_mem_cons.mpr ⟨rfl, hclimb⟩
  | name hname hstack =>
    rw [keep_cons_dotDot, if_neg hname.not_dotDot]
    exact hstack

theorem Reduced.keep {component : Bytes} (h : Reduced rooted stack) (hslash : slash ∉ component) :
    Reduced rooted (keep rooted stack component) := by
  by_cases hempty : component = []
  · rw [hempty, keep_empty]
    exact h
  by_cases hdot : component = dot
  · rw [hdot, keep_dot]
    exact h
  by_cases hdotDot : component = dotDot
  · rw [hdotDot]
    exact h.keep_dotDot
  · have hname : IsName component := ⟨hempty, hdot, hdotDot, hslash⟩
    rw [keep_name hname]
    exact Reduced.name hname h

theorem Reduced.foldl_keep {components : List Bytes} (h : Reduced rooted stack)
    (hslash : ∀ component ∈ components, slash ∉ component) :
    Reduced rooted (components.foldl (Path.keep rooted) stack) := by
  induction components generalizing stack with
  | nil => exact h
  | cons component components ih =>
    rw [List.forall_mem_cons] at hslash
    exact ih (h.keep hslash.1) hslash.2

theorem reduced_kept (path : Bytes) : Reduced (isRooted path) (kept path).reverse := by
  unfold kept
  rw [List.reverse_reverse]
  refine Reduced.nil.foldl_keep ?_
  intro component hcomponent hslash
  exact (mem_of_mem_split hcomponent slash hslash).1 rfl

/-- Nothing is taken away from a reduced stack. -/
theorem Reduced.foldl_keep_reverse (h : Reduced rooted stack) :
    stack.reverse.foldl (Path.keep rooted) [] = stack := by
  induction h with
  | nil => rfl
  | @climb stack hrooted hclimb _ ih =>
    rw [List.reverse_cons, List.foldl_append, ih, List.foldl_cons, List.foldl_nil]
    cases stack with
    | nil => simp [keep_nil_dotDot, hrooted]
    | cons last before => rw [keep_cons_dotDot, if_pos (hclimb last List.mem_cons_self)]
  | name hname _ ih =>
    rw [List.reverse_cons, List.foldl_append, ih, List.foldl_cons, List.foldl_nil,
      keep_name hname]

theorem reduced_of_isName (h : ∀ name ∈ stack, IsName name) : Reduced rooted stack := by
  induction stack with
  | nil => exact Reduced.nil
  | cons name stack ih =>
    rw [List.forall_mem_cons] at h
    exact Reduced.name h.1 (ih h.2)

theorem Reduced.isName (h : Reduced true stack) : ∀ name ∈ stack, IsName name := by
  induction h with
  | nil => simp
  | climb hrooted => cases hrooted
  | name hname _ ih => exact List.forall_mem_cons.mpr ⟨hname, ih⟩

theorem Reduced.component (h : Reduced rooted stack) :
    ∀ component ∈ stack, component ≠ [] ∧ slash ∉ component := by
  induction h with
  | nil => simp
  | climb _ _ _ ih => exact List.forall_mem_cons.mpr ⟨⟨by decide, by decide⟩, ih⟩
  | name hname _ ih =>
    exact List.forall_mem_cons.mpr ⟨⟨hname.nonempty, hname.slash_notMem⟩, ih⟩

end Reduced

/-- Cleaning an absolute path leaves names only. -/
theorem isName_of_mem_kept {path : Bytes} (hrooted : isRooted path = true) :
    ∀ name ∈ kept path, IsName name := by
  have hreduced := reduced_kept path
  rw [hrooted] at hreduced
  intro name hname
  exact hreduced.isName name (List.mem_reverse.mpr hname)

/-! ## Absolute paths -/

theorem isRooted_absolute (names : List Bytes) : isRooted (absolute names) = true := rfl

theorem clean_of_isRooted {path : Bytes} (h : isRooted path = true) :
    clean path = absolute (kept path) := by
  rw [clean, if_pos h]
  rfl

theorem isRooted_append {path : Bytes} (h : isRooted path = true) (more : Bytes) :
    isRooted (path ++ more) = true := by
  cases path with
  | nil => cases h
  | cons b path => exact h

/-- What is kept of a path and a further one behind a slash. -/
theorem kept_append_slash {path : Bytes} (h : isRooted path = true) (more : Bytes) :
    kept (path ++ slash :: more) =
      ((split more).foldl (keep true) (kept path).reverse).reverse := by
  rw [kept, kept, isRooted_append h, h, split_append_slash, List.foldl_append, List.reverse_reverse]

/-- An absolute path is its names, each behind a slash, but the root is a slash itself. -/
theorem absolute_concat (names : List Bytes) (name : Bytes) :
    absolute (names ++ [name]) = (if names = [] then [] else absolute names) ++ slash :: name := by
  induction names with
  | nil => simp [absolute, join]
  | cons first names ih =>
    rw [if_neg (List.cons_ne_nil first names)]
    cases names with
    | nil => simp [absolute, join]
    | cons second names =>
      rw [if_neg (List.cons_ne_nil second names)] at ih
      simp only [absolute, join, List.cons_append, List.intercalate_cons_cons, List.append_assoc,
        List.cons.injEq, true_and] at ih ⊢
      rw [ih]

theorem mem_absolute {names : List Bytes} {b : UInt8} (h : b ∈ absolute names) :
    b = slash ∨ ∃ name ∈ names, b ∈ name := by
  induction names using List.reverseRecOn with
  | nil => exact Or.inl (List.mem_singleton.mp h)
  | append_singleton names name ih =>
    rw [absolute_concat, List.mem_append, List.mem_cons] at h
    rcases h with h | rfl | h
    · split at h
      · cases h
      · refine (ih h).imp_right ?_
        rintro ⟨other, hother, hb⟩
        exact ⟨other, List.mem_append_left _ hother, hb⟩
    · exact Or.inl rfl
    · exact Or.inr ⟨name, by simp, h⟩

theorem kept_absolute {names : List Bytes} (h : ∀ name ∈ names, IsName name) :
    kept (absolute names) = names := by
  have hfold : names.foldl (keep true) [] = names.reverse := by
    have hreduced : Reduced true names.reverse := reduced_of_isName (by simpa using h)
    simpa using hreduced.foldl_keep_reverse
  unfold kept absolute
  rw [split_slash_cons, List.foldl_cons, keep_empty]
  cases names with
  | nil => rfl
  | cons first names =>
    rw [split_join (List.cons_ne_nil first names) fun name hname => (h name hname).slash_notMem]
    exact (congrArg List.reverse hfold).trans (List.reverse_reverse _)

/-- A name behind the path of a directory names an entry of the directory. -/
theorem clean_entry {names : List Bytes} (h : ∀ name ∈ names, IsName name) {name : Bytes}
    (hname : IsName name) :
    clean (absolute names ++ slash :: name) = absolute (names ++ [name]) := by
  have hrooted := isRooted_absolute names
  rw [clean_of_isRooted (isRooted_append hrooted _), kept_append_slash hrooted, kept_absolute h,
    split_of_slash_notMem hname.slash_notMem]
  simp [keep_name hname]

theorem parent_absolute {names : List Bytes} (h : ∀ name ∈ names, IsName name) {name : Bytes}
    (hname : IsName name) : parent (absolute (names ++ [name])) = absolute names := by
  have hlast : slash ∉ name.reverse := mt List.mem_reverse.mp hname.slash_notMem
  have hfront : ∀ front : Bytes,
      ((front ++ slash :: name).reverse.dropWhile (· != slash)).reverse = front ++ [slash] := by
    intro front
    rw [List.reverse_append, List.reverse_cons, List.append_assoc, List.singleton_append,
      (takeWhile_ne_stop hlast front.reverse).2]
    simp
  rw [parent, absolute_concat, hfront]
  split
  · rename_i hnil
    rw [hnil]
    rfl
  · have hrooted := isRooted_absolute names
    rw [clean_of_isRooted (isRooted_append hrooted _), kept_append_slash hrooted, kept_absolute h]
    exact congrArg absolute (List.reverse_reverse names)

/-! ## Paths seen from a working directory -/

theorem exists_resolve_eq (workingDirectory : List Bytes) (path : Bytes) :
    ∃ rooted, isRooted rooted = true ∧ resolve workingDirectory path = clean rooted := by
  unfold resolve
  split
  · rename_i hrooted
    exact ⟨path, hrooted, rfl⟩
  · exact ⟨_, isRooted_append (isRooted_absolute workingDirectory) _, rfl⟩

theorem isName_of_mem_kept_resolve (workingDirectory : List Bytes) (path : Bytes) :
    ∀ name ∈ kept (resolve workingDirectory path), IsName name := by
  obtain ⟨rooted, hrooted, hresolve⟩ := exists_resolve_eq workingDirectory path
  have hnames := isName_of_mem_kept hrooted
  rw [hresolve, clean_of_isRooted hrooted, kept_absolute hnames]
  exact hnames

theorem absolute_kept_resolve (workingDirectory : List Bytes) (path : Bytes) :
    absolute (kept (resolve workingDirectory path)) = resolve workingDirectory path := by
  obtain ⟨rooted, hrooted, hresolve⟩ := exists_resolve_eq workingDirectory path
  rw [hresolve, clean_of_isRooted hrooted, kept_absolute (isName_of_mem_kept hrooted)]

theorem kept_resolve_absolute (workingDirectory : List Bytes) {names : List Bytes}
    (h : ∀ name ∈ names, IsName name) :
    kept (resolve workingDirectory (absolute names)) = names := by
  rw [resolve, if_pos (isRooted_absolute names), clean_of_isRooted (isRooted_absolute names),
    kept_absolute h, kept_absolute h]

/-- Where a walk along the components of a path starts. -/
def origin (workingDirectory : List Bytes) (path : Bytes) : List Bytes :=
  if isRooted path then [] else workingDirectory

/-- The clean path is what the components make of the place where they start. -/
theorem kept_resolve {workingDirectory : List Bytes} (h : ∀ name ∈ workingDirectory, IsName name)
    (path : Bytes) :
    kept (resolve workingDirectory path) =
      ((split path).foldl (keep true) (origin workingDirectory path).reverse).reverse := by
  unfold resolve origin
  split
  · rename_i hrooted
    rw [clean_of_isRooted hrooted, kept_absolute (isName_of_mem_kept hrooted), kept, hrooted]
    rfl
  · have hrooted := isRooted_append (isRooted_absolute workingDirectory) (slash :: path)
    rw [clean_of_isRooted hrooted, kept_absolute (isName_of_mem_kept hrooted),
      kept_append_slash (isRooted_absolute workingDirectory), kept_absolute h]

end BraceBalance.Path
