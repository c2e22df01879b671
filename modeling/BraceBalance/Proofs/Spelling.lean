/-
  Spellings of one path.

  A path can be written longer without leading elsewhere: by further slashes behind a slash,
  by `.` as a component, or by a name and `..` behind it.  Cleaning takes all of this away
  (`clean_eq_of_respelling`), and nothing is left to take away from what it leaves
  (`clean_clean`).  An event is relevant by its cleaned path, so it counts under every spelling
  of the watched path, but only if the watched path itself is clean.
-/
import BraceBalance.Proofs.Path
import BraceBalance.Proofs.Watching
import Mathlib.Logic.Relation

set_option autoImplicit false

namespace BraceBalance

namespace Path

/-! ## Longer spellings -/

/-- A place in a path where a component begins: behind a slash, or at the start of a path that
does not begin with one. -/
def BeginsComponent (front rest : Bytes) : Prop :=
  front.getLast? = some slash ∨ front = [] ∧ isRooted rest = false

/-- A path and a longer one that differs by one insertion. -/
inductive Lengthened : Bytes → Bytes → Prop where
  /-- A slash behind a slash. -/
  | slash {front rest : Bytes} : front.getLast? = some slash →
      Lengthened (front ++ rest) (front ++ slash :: rest)
  /-- The component `.`, where a component begins. -/
  | dot {front rest : Bytes} : BeginsComponent front rest →
      Lengthened (front ++ rest) (front ++ (dot ++ slash :: rest))
  /-- A name and the way back from it, where a component begins. -/
  | detour {front rest name : Bytes} : BeginsComponent front rest → IsName name →
      Lengthened (front ++ rest) (front ++ (name ++ slash :: (dotDot ++ slash :: rest)))

/-- Two paths that insertions and their removal turn into each other. -/
def Respelling : Bytes → Bytes → Prop := Relation.EqvGen Lengthened

theorem clean_congr {path other : Bytes} (hrooted : isRooted path = isRooted other)
    (hkept : kept path = kept other) : clean path = clean other := by
  unfold clean
  rw [hrooted, hkept]

theorem isRooted_of_getLast? {front : Bytes} (h : front.getLast? = some slash) (rest : Bytes) :
    isRooted (front ++ rest) = isRooted front := by
  cases front with
  | nil => cases h
  | cons b front => rfl

/-- What stands in front of a component adds the same components to whatever follows. -/
theorem BeginsComponent.split_append {front rest : Bytes} (h : BeginsComponent front rest) :
    ∃ outer, ∀ inner, split (front ++ inner) = outer ++ split inner := by
  rcases h with hslash | ⟨rfl, -⟩
  · obtain ⟨before, rfl⟩ := List.getLast?_eq_some_iff.mp hslash
    refine ⟨split before, ?_⟩
    intro inner
    rw [List.append_assoc, List.singleton_append, split_append_slash]
  · exact ⟨[], fun _ => rfl⟩

/-- Components do not change where a path starts. -/
theorem BeginsComponent.isRooted_append {front rest inner : Bytes}
    (h : BeginsComponent front rest) (hinner : isRooted inner = false) :
    isRooted (front ++ inner) = isRooted (front ++ rest) := by
  rcases h with hslash | ⟨rfl, hrest⟩
  · rw [isRooted_of_getLast? hslash, isRooted_of_getLast? hslash]
  · rw [List.nil_append, List.nil_append, hinner, hrest]

/-- Components that leave every stack as it is can be written anywhere. -/
theorem BeginsComponent.clean_append {front rest inner : Bytes} (h : BeginsComponent front rest)
    (hrooted : isRooted (front ++ inner) = isRooted (front ++ rest))
    (hkeep : ∀ rooted stack,
      (split inner).foldl (keep rooted) stack = (split rest).foldl (keep rooted) stack) :
    clean (front ++ rest) = clean (front ++ inner) := by
  obtain ⟨outer, hsplit⟩ := h.split_append
  refine clean_congr hrooted.symm ?_
  unfold kept
  rw [hrooted, hsplit, hsplit, List.foldl_append, List.foldl_append, hkeep]

/-- A path that begins with a component does not start at the root. -/
theorem isRooted_component_append {component : Bytes} (hne : component ≠ [])
    (hslash : slash ∉ component) (rest : Bytes) : isRooted (component ++ rest) = false := by
  obtain ⟨b, component, rfl⟩ := List.exists_cons_of_ne_nil hne
  have hb : b ≠ slash := fun heq => hslash (heq ▸ List.mem_cons_self)
  simp [isRooted, hb]

theorem clean_eq_of_lengthened {path longer : Bytes} (h : Lengthened path longer) :
    clean path = clean longer := by
  cases h with
  | @slash front rest hslash =>
    refine BeginsComponent.clean_append (Or.inl hslash) ?_ ?_
    · rw [isRooted_of_getLast? hslash, isRooted_of_getLast? hslash]
    · intro rooted stack
      rw [split_slash_cons, List.foldl_cons, keep_empty]
  | @dot front rest hbegins =>
    refine hbegins.clean_append (hbegins.isRooted_append rfl) ?_
    intro rooted stack
    have hdot : split dot = [dot] := split_of_slash_notMem (by decide)
    rw [split_append_slash, hdot, List.singleton_append, List.foldl_cons, keep_dot]
  | @detour front rest name hbegins hname =>
    have hrooted := isRooted_component_append hname.nonempty hname.slash_notMem
    refine hbegins.clean_append (hbegins.isRooted_append (hrooted _)) ?_
    intro rooted stack
    have hdotDot : split dotDot = [dotDot] := split_of_slash_notMem (by decide)
    rw [split_append_slash, split_append_slash, split_of_slash_notMem hname.slash_notMem, hdotDot,
      List.singleton_append, List.singleton_append, List.foldl_cons, List.foldl_cons,
      keep_name_dotDot hname]

/-- All spellings of a path have one clean form. -/
theorem clean_eq_of_respelling {path other : Bytes} (h : Respelling path other) :
    clean path = clean other := by
  induction h with
  | rel path longer hlonger => exact clean_eq_of_lengthened hlonger
  | refl path => rfl
  | symm path other _ ih => exact ih.symm
  | trans path between other _ _ ih ih' => exact ih.trans ih'

/-! ## Clean paths -/

theorem isRooted_join {components : List Bytes}
    (h : ∀ component ∈ components, component ≠ [] ∧ slash ∉ component) :
    isRooted (join components) = false := by
  unfold join
  cases components with
  | nil => rfl
  | cons first components =>
    obtain ⟨hne, hslash⟩ := h first List.mem_cons_self
    cases components with
    | nil =>
      rw [List.intercalate_singleton, ← List.append_nil first]
      exact isRooted_component_append hne hslash []
    | cons second components =>
      rw [List.intercalate_cons_cons, List.append_assoc]
      exact isRooted_component_append hne hslash _

/-- The components of a clean relative path are the ones that cleaning keeps. -/
theorem kept_join {components : List Bytes} (hne : components ≠ [])
    (h : Reduced false components.reverse) : kept (join components) = components := by
  have hcomponents : ∀ component ∈ components, component ≠ [] ∧ slash ∉ component :=
    fun component hmem => h.component component (List.mem_reverse.mpr hmem)
  have hfold := h.foldl_keep_reverse
  rw [List.reverse_reverse] at hfold
  unfold kept
  rw [isRooted_join hcomponents,
    split_join hne fun component hmem => (hcomponents component hmem).2, hfold,
    List.reverse_reverse]

/-- Cleaning twice is cleaning once. -/
theorem clean_clean (path : Bytes) : clean (clean path) = clean path := by
  cases hrooted : isRooted path with
  | true =>
    rw [clean_of_isRooted hrooted, clean_of_isRooted (isRooted_absolute _),
      kept_absolute (isName_of_mem_kept hrooted)]
  | false =>
    -- The kept components may begin with some that climb, so they are not all names.
    have hreduced := reduced_kept path
    rw [hrooted] at hreduced
    have hclean : clean path = if (kept path).isEmpty then dot else join (kept path) := by
      rw [clean, if_neg (by simp [hrooted])]
    rw [hclean]
    by_cases hempty : kept path = []
    · rw [hempty]
      rfl
    · have hrelative : isRooted (join (kept path)) = false :=
        isRooted_join fun component hmem =>
          hreduced.component component (List.mem_reverse.mpr hmem)
      rw [if_neg (by simpa using hempty), clean, hrelative, kept_join hempty hreduced,
        if_neg Bool.false_ne_true, if_neg (by simpa using hempty)]

/-! ## Paths seen from the root -/

/-- A path as seen from the root, not cleaned. -/
def fromRoot (workingDirectory : List Bytes) (path : Bytes) : Bytes :=
  if isRooted path then path else absolute workingDirectory ++ slash :: path

theorem resolve_eq_clean (workingDirectory : List Bytes) (path : Bytes) :
    resolve workingDirectory path = clean (fromRoot workingDirectory path) := by
  unfold resolve fromRoot
  split <;> rfl

end Path

/-! ## Events of a watched path -/

theorem Event.isRelevant_eq_of_respelling {path other : Bytes} (h : Path.Respelling path other)
    (kinds : UInt32) (target : Bytes) :
    isRelevant ⟨other, kinds⟩ target = isRelevant ⟨path, kinds⟩ target := by
  unfold isRelevant
  rw [Path.clean_eq_of_respelling h]

/-- A target that is not clean is the clean form of no path. -/
theorem Event.isRelevant_of_not_clean {target : Bytes} (h : Path.clean target ≠ target)
    (event : Event) : event.isRelevant target = false := by
  have hother : Path.clean event.path ≠ target := by
    rintro rfl
    exact h (Path.clean_clean event.path)
  simp [isRelevant, hother]

theorem Event.isRelevant_of_clean {path target : Bytes} (h : Path.clean path = target)
    (kinds : UInt32) :
    isRelevant ⟨path, kinds⟩ target = true ↔ kinds &&& (create ||| write ||| rename) ≠ 0 := by
  simp [isRelevant, h, relevantKinds]

/-- Whether an event is relevant does not depend on how its path is spelled.  To a target that
is not clean no event at all is relevant.  The target of a watched path is clean, and the
relevant events are those of a relevant kind under every spelling of the target or of the
path that was given, as seen from the root. -/
theorem relevance_ignores_spelling :
    (∀ path other, Path.Respelling path other → ∀ kinds target,
      Event.isRelevant ⟨other, kinds⟩ target = Event.isRelevant ⟨path, kinds⟩ target) ∧
      (∀ target, Path.clean target ≠ target → ∀ event : Event, event.isRelevant target = false) ∧
      ∀ (α : Type) (files : FileSystem) (path : Bytes) (value : α) (loop : Watch.Loop α),
        Watch.start files path value = .ok loop →
          Path.clean loop.target = loop.target ∧
          ∀ name, Path.Respelling loop.target name ∨
              Path.Respelling (Path.fromRoot files.workingDirectory path) name →
            ∀ kinds, Event.isRelevant ⟨name, kinds⟩ loop.target = true ↔
              kinds &&& (Event.create ||| Event.write ||| Event.rename) ≠ 0 := by
  refine ⟨fun path other => Event.isRelevant_eq_of_respelling,
    fun target => Event.isRelevant_of_not_clean, ?_⟩
  intro α files path value loop hstart
  have htarget : loop.target = Path.clean (Path.fromRoot files.workingDirectory path) := by
    rw [← Path.resolve_eq_clean]
    exact (Watch.of_start hstart).1.2.1
  have hclean : Path.clean loop.target = loop.target := by
    rw [htarget, Path.clean_clean]
  refine ⟨hclean, ?_⟩
  intro name hname
  refine Event.isRelevant_of_clean ?_
  rcases hname with hspelled | hspelled
  · rw [← Path.clean_eq_of_respelling hspelled, hclean]
  · rw [← Path.clean_eq_of_respelling hspelled, htarget]

/-- The file `f` is watched from inside `/w`.  An event of `/w/x/../f` is relevant, though no
event would be if that were the target. -/
theorem relevance_ignores_spelling_detour :
    let target : Bytes := [Path.slash, 0x77, Path.slash, 0x66]
    let longer : Bytes :=
      [Path.slash, 0x77, Path.slash, 0x78, Path.slash, 0x2E, 0x2E, Path.slash, 0x66]
    Path.Respelling target longer ∧ Path.clean longer ≠ longer ∧
      Event.isRelevant ⟨longer, Event.write⟩ target =
        Event.isRelevant ⟨target, Event.write⟩ target ∧
      Event.isRelevant ⟨target, Event.write⟩ longer = false ∧
      ∃ loop, Watch.start (FileSystem.empty [[0x77]]) [0x66] () = .ok loop ∧
        Event.isRelevant ⟨longer, Event.write⟩ loop.target = true := by
  intro target longer
  have hname : Path.IsName [0x78] := ⟨by decide, by decide, by decide, by decide⟩
  have hspelled : Path.Respelling target longer :=
    .rel _ _ (@Path.Lengthened.detour [Path.slash, 0x77, Path.slash] [0x66] _ (Or.inl rfl) hname)
  have hclean : Path.clean longer ≠ longer := by decide
  have hstart : Watch.start (FileSystem.empty [[0x77]]) [0x66] () =
      .ok ⟨FileSystem.empty [[0x77]], target, some [[0x77]], .start, ()⟩ := by
    rfl
  obtain ⟨hsame, hnever, hwatched⟩ := relevance_ignores_spelling
  refine ⟨hspelled, hclean, hsame _ _ hspelled _ _, hnever _ hclean _, _, hstart, ?_⟩
  obtain ⟨-, hrelevant⟩ := hwatched Unit _ _ () _ hstart
  exact (hrelevant longer (Or.inl hspelled) Event.write).mpr (by decide)

end BraceBalance
