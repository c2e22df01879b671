/-
  Changes of a file system: what they leave alone, and where paths lead meanwhile.

  A change touches the places it names and what is below them; everything else stays as it is
  (`Effect.node?_other`).  A path leads through directories, each of which has to be there.  As long
  as those are not touched, the path leads to the place that its spelling names, and what is
  read there depends on nothing but what stands there (`KeepsWay.open?_eq`).
-/
import BraceBalance.FileSystem.Change
import BraceBalance.Proofs.Path

set_option autoImplicit false

namespace BraceBalance.FileSystem

variable {files : FileSystem} {place target other : Location}

/-! ## What stands where -/

/-- Entries chosen by their keys are found under the chosen keys. -/
theorem lookup_filter_fst {κ ν : Type} [BEq κ] [LawfulBEq κ] (test : κ → Bool)
    (entries : List (κ × ν)) (key : κ) :
    (entries.filter fun entry => test entry.1).lookup key =
      if test key then entries.lookup key else none := by
  induction entries with
  | nil => simp
  | cons entry entries ih =>
    obtain ⟨first, value⟩ := entry
    rw [List.filter_cons, List.lookup_cons]
    cases hkey : key == first with
    | true =>
      rw [← eq_of_beq hkey]
      cases htest : test key with
      | true => simp
      | false => simpa [htest] using ih
    | false =>
      cases htest : test first with
      | true => simpa [List.lookup_cons, hkey] using ih
      | false => simpa using ih

theorem node?_nil : files.node? [] = some .directory := rfl

theorem node?_of_ne_nil (h : place ≠ []) : files.node? place = files.nodes.lookup place :=
  if_neg h

theorem ne_nil_of_node?_file {content : Bytes} (h : files.node? place = some (.file content)) :
    place ≠ [] := by
  rintro rfl
  cases h

theorem node?_put_other (h : other ≠ place) (node : Node) :
    (files.put place node).node? other = files.node? other := by
  by_cases hnil : other = []
  · rw [hnil, node?_nil, node?_nil]
  · have hkey : (other == place) = false := beq_false_of_ne h
    rw [node?_of_ne_nil hnil, node?_of_ne_nil hnil, put, List.lookup_cons, hkey]
    exact (lookup_filter_fst (· != place) files.nodes other).trans (if_pos (bne_iff_ne.mpr h))

theorem node?_erase_other (h : ¬ place <+: other) :
    (files.erase place).node? other = files.node? other := by
  by_cases hnil : other = []
  · rw [hnil, node?_nil, node?_nil]
  · have hkept : (!place.isPrefixOf other) = true := by
      rw [Bool.not_eq_true', ← Bool.not_eq_true, List.isPrefixOf_iff_prefix]
      exact h
    rw [node?_of_ne_nil hnil, node?_of_ne_nil hnil, erase]
    exact (lookup_filter_fst (!place.isPrefixOf ·) files.nodes other).trans (if_pos hkept)

theorem node?_erase_self (h : place ≠ []) : (files.erase place).node? place = none := by
  have hgone : ¬ (!place.isPrefixOf place) = true := by simp
  rw [node?_of_ne_nil h, erase]
  exact (lookup_filter_fst (!place.isPrefixOf ·) files.nodes place).trans (if_neg hgone)

theorem node?_move_other (hplace : ¬ place <+: other) (htarget : ¬ target <+: other) :
    (files.move place target).node? other = files.node? other := by
  by_cases hnil : other = []
  · rw [hnil, node?_nil, node?_nil]
  · have hrest : ((files.erase place).erase target).node? other = files.node? other := by
      rw [node?_erase_other htarget, node?_erase_other hplace]
    rw [← hrest, node?_of_ne_nil hnil, node?_of_ne_nil hnil, move, List.lookup_append,
      List.lookup_eq_none_iff.mpr, Option.none_or]
    -- What was moved stands below the new place.
    intro entry hentry
    obtain ⟨before, -, hbefore⟩ := List.mem_filterMap.mp hentry
    split at hbefore
    · cases hbefore
      rw [bne_iff_ne]
      rintro rfl
      exact htarget (List.prefix_append target _)
    · cases hbefore

/-! ## What a change touches -/

/-- The places that a change names. -/
def touched (files : FileSystem) : Change → List Location
  | .replace file _ => [files.locate file]
  | .append file _ => [files.locate file]
  | .remove file => [files.locate file]
  | .rename file newName => [files.locate file, files.locate newName]
  | .chmod file => [files.locate file]
  | .mkdir file => [files.locate file]

/-- What a change can do at the places it names, and the news of it. -/
inductive Effect (files : FileSystem) (places : List Location) : FileSystem × List News → Prop where
  | refused : Effect files places (files, [])
  | attributes {place : Location} (hplace : place ∈ places) :
      Effect files places (files, [.attributesChanged place])
  | put {place : Location} (hplace : place ∈ places) (node : Node) {news : List News}
      (hsome : news ≠ []) (hnews : ∀ item ∈ news, item = .created place ∨ item = .written place) :
      Effect files places (files.put place node, news)
  | erase {place : Location} (hplace : place ∈ places) (hroot : place ≠ []) :
      Effect files places (files.erase place, [.removed place])
  | move {place target : Location} (hplace : place ∈ places) (htarget : target ∈ places) :
      Effect files places (files.move place target, [.renamed place target])

theorem effect_apply (files : FileSystem) (change : Change) :
    Effect files (files.touched change) (files.apply change) := by
  cases change with
  | replace file content =>
    rw [apply]
    split
    · exact .put List.mem_cons_self _ (by simp) (by simp)
    · exact .refused
  | append file content =>
    rw [apply]
    split
    · split
      · exact .refused
      · exact .put List.mem_cons_self _ (by simp) (by simp)
    · exact .refused
    · split
      · refine .put List.mem_cons_self _ ?_ ?_ <;> split <;> simp
      · exact .refused
  | remove file =>
    rw [apply]
    split
    · rename_i hthere
      rw [Bool.and_eq_true, bne_iff_ne] at hthere
      exact .erase List.mem_cons_self hthere.2
    · exact .refused
  | rename file newName =>
    rw [apply]
    split
    · exact .move List.mem_cons_self (List.mem_cons_of_mem _ List.mem_cons_self)
    · exact .refused
  | chmod file =>
    rw [apply]
    split
    · exact .attributes List.mem_cons_self
    · exact .refused
  | mkdir file =>
    rw [apply]
    split
    · exact .put List.mem_cons_self _ (by simp) (by simp)
    · exact .refused

theorem Effect.workingDirectory {places : List Location} {result : FileSystem × List News}
    (h : Effect files places result) : result.1.workingDirectory = files.workingDirectory := by
  cases h <;> rfl

/-- A change leaves everything alone that is not at or below a place it names. -/
theorem Effect.node?_other {places : List Location} {result : FileSystem × List News}
    (h : Effect files places result) (hother : ∀ place ∈ places, ¬ place <+: other) :
    result.1.node? other = files.node? other := by
  cases h with
  | refused => rfl
  | attributes hplace => rfl
  | put hplace node hsome hnews =>
    refine node?_put_other ?_ node
    rintro rfl
    exact hother _ hplace List.prefix_rfl
  | erase hplace hroot => exact node?_erase_other (hother _ hplace)
  | move hplace htarget => exact node?_move_other (hother _ hplace) (hother _ htarget)

/-! ## Where a path leads -/

/-- Where a component leads from a place. -/
def enter (place : Location) (component : Bytes) : Location :=
  if component = [] ∨ component = Path.dot then place
  else if component = Path.dotDot then place.dropLast
  else place ++ [component]

/-- The directories in which components are looked up one after the other. -/
def passedFrom (place : Location) : List Bytes → List Location
  | [] => []
  | component :: rest => place :: passedFrom (enter place component) rest

/-- The directories through which a path leads. -/
def passed (files : FileSystem) (path : Bytes) : List Location :=
  passedFrom (Path.origin files.workingDirectory path) (Path.split path)

/-- Following a path one component further: its place is a directory, and a component that is
a name has an entry there. -/
theorem follow_cons {component : Bytes} {rest : List Bytes} {found : Location}
    (h : files.follow place (component :: rest) = .ok found) :
    files.isDirectory place = true ∧ files.follow (enter place component) rest = .ok found := by
  rw [follow] at h
  unfold enter
  cases hdirectory : files.isDirectory place with
  | false => simp [hdirectory] at h
  | true =>
    simp only [hdirectory, Bool.not_true, Bool.false_eq_true, if_false] at h
    split at h
    · rename_i hstays
      rw [if_pos hstays]
      exact ⟨rfl, h⟩
    · rename_i hstays
      rw [if_neg hstays]
      split at h
      · rename_i hparent
        rw [if_pos hparent]
        exact ⟨rfl, h⟩
      · rename_i hparent
        rw [if_neg hparent]
        split at h
        · cases h
        · split at h
          · cases h
          · exact ⟨rfl, h⟩

theorem isDirectory_of_follow {components : List Bytes} {found : Location}
    (h : files.follow place components = .ok found) :
    ∀ directory ∈ passedFrom place components, files.isDirectory directory = true := by
  induction components generalizing place with
  | nil => simp [passedFrom]
  | cons component rest ih =>
    obtain ⟨hdirectory, hrest⟩ := follow_cons h
    exact List.forall_mem_cons.mpr ⟨hdirectory, ih hrest⟩

/-- A path that can be followed leads where its components lead by their spelling. -/
theorem foldl_keep_of_follow {components : List Bytes} {found : Location}
    (h : files.follow place components = .ok found) (hplace : Path.dotDot ∉ place) :
    components.foldl (Path.keep true) place.reverse = found.reverse := by
  induction components generalizing place with
  | nil =>
    cases h
    rfl
  | cons component rest ih =>
    obtain ⟨-, hrest⟩ := follow_cons h
    unfold enter at hrest
    rw [List.foldl_cons]
    split at hrest
    · rename_i hstays
      rw [Path.keep.eq_def, if_pos hstays]
      exact ih hrest hplace
    · rename_i hstays
      split at hrest
      · rename_i hparent
        rw [hparent, Path.keep_dotDot hplace]
        exact ih hrest (fun hmem => hplace (List.dropLast_subset place hmem))
      · rename_i hparent
        rw [Path.keep.eq_def, if_neg hstays, if_neg hparent]
        have hnext : Path.dotDot ∉ place ++ [component] := by
          simp [hplace, Ne.symm hparent]
        have hfold := ih hrest hnext
        rwa [List.reverse_append, List.reverse_singleton, List.singleton_append] at hfold

/-- The components of a path lead to the same place as long as the directories on the way are
there; only what stands at that place may be gone. -/
theorem follow_of_passed {later : FileSystem} {components : List Bytes} {found : Location}
    (h : files.follow place components = .ok found)
    (hpassed : ∀ directory ∈ passedFrom place components, later.isDirectory directory = true) :
    later.follow place components = .ok found ∨
      (later.node? found = none ∧ later.follow place components = .error .notFound) := by
  induction components generalizing place with
  | nil => exact Or.inl h
  | cons component rest ih =>
    obtain ⟨hdirectory, hbehind⟩ := List.forall_mem_cons.mp hpassed
    have hnext := ih (follow_cons h).2 hbehind
    have hname := h
    rw [follow] at hname ⊢
    simp only [(follow_cons h).1, hdirectory, Bool.not_true, Bool.false_eq_true, if_false]
      at hname ⊢
    unfold enter at hnext hbehind
    split
    · rename_i hstays
      rwa [if_pos hstays] at hnext
    · rename_i hstays
      rw [if_neg hstays] at hnext hbehind hname
      split
      · rename_i hparent
        rwa [if_pos hparent] at hnext
      · rename_i hparent
        rw [if_neg hparent] at hnext hbehind hname
        split at hname
        · cases hname
        · rename_i hlength
          rw [if_neg hlength]
          split
          · rename_i hgone
            cases rest with
            | nil =>
              split at hname
              · cases hname
              · cases hname
                exact Or.inr ⟨hgone, rfl⟩
            | cons next rest =>
              -- The next component is looked up here, so a directory stands here.
              have hthere := hbehind _ List.mem_cons_self
              rw [isDirectory, hgone] at hthere
              cases hthere
          · exact hnext

theorem find_of_find {later : FileSystem} {path : Bytes} (h : files.find path = .ok place)
    (hsame : later.workingDirectory = files.workingDirectory) :
    later.find path =
      later.follow (Path.origin files.workingDirectory path) (Path.split path) := by
  unfold find at h ⊢
  split at h
  · cases h
  · rename_i hnul
    split at h
    · cases h
    · rename_i hlength
      split at h
      · cases h
      · rename_i hnil
        rw [if_neg hnul, if_neg hlength, if_neg hnil, hsame]
        rfl

theorem follow_of_find {path : Bytes} (h : files.find path = .ok place) :
    files.follow (Path.origin files.workingDirectory path) (Path.split path) = .ok place := by
  rw [← find_of_find h rfl]
  exact h

/-- The working directory is a place in the file system: names without NUL lead to it. -/
def IsPlaced (files : FileSystem) : Prop :=
  ∀ name ∈ files.workingDirectory, Path.IsName name ∧ 0 ∉ name

theorem IsPlaced.isName (h : files.IsPlaced) : ∀ name ∈ files.workingDirectory, Path.IsName name :=
  fun name hname => (h name hname).1

/-- A path that can be followed leads to the place that its spelling names. -/
theorem locate_of_find (hplaced : files.IsPlaced) {path : Bytes}
    (h : files.find path = .ok place) : files.locate path = place := by
  have hdotDot : Path.dotDot ∉ Path.origin files.workingDirectory path := by
    unfold Path.origin
    split
    · exact List.not_mem_nil
    · exact fun hmem => (hplaced.isName _ hmem).not_dotDot rfl
  rw [locate, Path.kept_resolve hplaced.isName, foldl_keep_of_follow (follow_of_find h) hdotDot,
    List.reverse_reverse]

theorem isName_of_find (hplaced : files.IsPlaced) {path : Bytes}
    (h : files.find path = .ok place) : ∀ name ∈ place, Path.IsName name := by
  rw [← locate_of_find hplaced h]
  exact Path.isName_of_mem_kept_resolve _ _

theorem resolve_of_find (hplaced : files.IsPlaced) {path : Bytes}
    (h : files.find path = .ok place) :
    Path.resolve files.workingDirectory path = Path.absolute place := by
  rw [← locate_of_find hplaced h]
  exact (Path.absolute_kept_resolve _ _).symm

theorem eq_of_find_absolute (hplaced : files.IsPlaced) {names : List Bytes}
    (hnames : ∀ name ∈ names, Path.IsName name)
    (h : files.find (Path.absolute names) = .ok place) : place = names := by
  rw [← locate_of_find hplaced h]
  exact Path.kept_resolve_absolute _ hnames

/-- The directories through which a path led are still there. -/
structure KeepsWay (files : FileSystem) (path : Bytes) (later : FileSystem) : Prop where
  workingDirectory : later.workingDirectory = files.workingDirectory
  passed : ∀ directory ∈ files.passed path, later.isDirectory directory = true

theorem keepsWay_of_find {path : Bytes} (h : files.find path = .ok place) :
    files.KeepsWay path files :=
  ⟨rfl, isDirectory_of_follow (follow_of_find h)⟩

theorem KeepsWay.touched_eq {later : FileSystem} {path : Bytes} (h : files.KeepsWay path later)
    (change : Change) : later.touched change = files.touched change := by
  cases change <;> simp only [touched, locate, h.workingDirectory]

/-- A change leaves alone the directory that holds the file of a path, the directories through
which the path leads, and what is above them. -/
def Spares (files : FileSystem) (path : Bytes) (change : Change) : Prop :=
  ∀ place ∈ files.touched change,
    ∀ directory ∈ (files.locate path).dropLast :: files.passed path, ¬ place <+: directory

instance (files : FileSystem) (path : Bytes) (change : Change) :
    Decidable (files.Spares path change) :=
  inferInstanceAs (Decidable (∀ place ∈ _, ∀ directory ∈ _, ¬ place <+: directory))

theorem KeepsWay.apply {later : FileSystem} {path : Bytes} (h : files.KeepsWay path later)
    {change : Change} (hspared : files.Spares path change) :
    files.KeepsWay path (later.apply change).1 where
  workingDirectory := (effect_apply later change).workingDirectory.trans h.workingDirectory
  passed directory hdirectory := by
    have hsame : (later.apply change).1.node? directory = later.node? directory := by
      apply (effect_apply later change).node?_other
      rw [h.touched_eq change]
      exact fun place hplace => hspared place hplace directory (List.mem_cons_of_mem _ hdirectory)
    rw [isDirectory, hsame]
    exact h.passed directory hdirectory

/-- What is read at a path depends on nothing but what stands at the place where it leads, as
long as the directories on the way are there. -/
theorem KeepsWay.open?_eq {later : FileSystem} {path : Bytes} (hway : files.KeepsWay path later)
    (h : files.find path = .ok place) :
    later.open? path =
      match later.node? place with
      | none => .error .notFound
      | some .directory => .ok (Source.failing (.isDirectory path))
      | some (.file content) => .ok (Source.ofContent content) := by
  rw [open?, find_of_find h hway.workingDirectory]
  rcases follow_of_passed (follow_of_find h) hway.passed with hfollow | ⟨hgone, hfollow⟩
  · rewrite [hfollow]
    rfl
  · rewrite [hfollow, hgone]
    rfl

/-! ## Names on the way -/

theorem mem_of_follow {components : List Bytes} {found : Location}
    (h : files.follow place components = .ok found) :
    ∀ name ∈ found, name ∈ place ∨ name ∈ components := by
  induction components generalizing place with
  | nil =>
    cases h
    exact fun name hname => Or.inl hname
  | cons component rest ih =>
    intro name hname
    rcases ih (follow_cons h).2 name hname with hplace | hrest
    · unfold enter at hplace
      split at hplace
      · exact Or.inl hplace
      · split at hplace
        · exact Or.inl (List.dropLast_subset place hplace)
        · rw [List.mem_append, List.mem_singleton] at hplace
          exact hplace.imp_right fun heq => List.mem_cons.mpr (Or.inl heq)
    · exact Or.inr (List.mem_cons_of_mem component hrest)

theorem nul_notMem_of_find (hplaced : files.IsPlaced) {path : Bytes}
    (h : files.find path = .ok place) : ∀ name ∈ place, 0 ∉ name := by
  have hpath : 0 ∉ path := by
    intro hnul
    rw [find, if_pos (List.contains_iff_mem.mpr hnul)] at h
    cases h
  intro name hname
  rcases mem_of_follow (follow_of_find h) name hname with horigin | hcomponent
  · unfold Path.origin at horigin
    split at horigin
    · cases horigin
    · exact (hplaced name horigin).2
  · exact fun hnul => hpath (Path.mem_of_mem_split hcomponent 0 hnul).2

theorem follow_ne_invalidName (components : List Bytes) :
    files.follow place components ≠ .error .invalidName := by
  induction components generalizing place with
  | nil => simp [follow]
  | cons component rest ih =>
    rw [follow]
    split
    · simp
    · split
      · exact ih
      · split
        · exact ih
        · split
          · simp
          · split
            · simp
            · exact ih

theorem find_absolute_ne_invalidName {names : List Bytes} (h : ∀ name ∈ names, 0 ∉ name) :
    files.find (Path.absolute names) ≠ .error .invalidName := by
  have hnul : ¬ (Path.absolute names).contains 0 = true := by
    rw [List.contains_iff_mem]
    intro hmem
    rcases Path.mem_absolute hmem with hslash | ⟨name, hname, hnul⟩
    · exact absurd hslash (by decide)
    · exact h name hname hnul
  rw [find, if_neg hnul]
  split
  · simp
  · split
    · simp
    · exact follow_ne_invalidName _

end BraceBalance.FileSystem
