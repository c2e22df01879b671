/-
  A watched file while the file system changes.

  A change sends events on their way, and they reach the machine later, one by one and in order
  (`Session`).  Whatever can give the watched file new content makes a relevant event
  (`Effect.node?_or_news`), so there are three states only: the machine has a change to report,
  an event that will make it report one is underway, or the last scan has read what the file
  holds (`Session.IsFresh`).  Every move keeps to these three (`IsFresh.move`).
-/
import BraceBalance.Proofs.Debounce
import BraceBalance.Proofs.FileSystem
import BraceBalance.Watch.Loop

set_option autoImplicit false

namespace BraceBalance

variable {files : FileSystem} {path : Bytes}

/-! ## The news of a change -/

namespace FileSystem.Effect

variable {places : List Location} {result : FileSystem × List News}

theorem mem_places (h : Effect files places result) :
    ∀ news ∈ result.2, ∀ entry ∈ news.kindsAt, entry.1 ∈ places := by
  cases h with
  | refused => simp
  | attributes hplace => simpa [News.kindsAt] using hplace
  | put hplace node hsome hnews =>
    intro news hmem
    rcases hnews news hmem with rfl | rfl <;> simpa [News.kindsAt] using hplace
  | erase hplace hroot => simpa [News.kindsAt] using hplace
  | move hplace htarget =>
    intro news hmem
    rw [List.mem_singleton.mp hmem]
    exact List.forall_mem_cons.mpr ⟨hplace, List.forall_mem_singleton.mpr htarget⟩

/-- What a change puts at a place is told in relevant news of that place. -/
theorem node?_or_news (h : Effect files places result) {place : Location}
    (hplaces : ∀ other ∈ places, other <+: place → other = place) :
    result.1.node? place = files.node? place ∨ result.1.node? place = none ∨
      ∃ news ∈ result.2, ∃ kinds, (place, kinds) ∈ news.kindsAt ∧
        kinds &&& Event.relevantKinds ≠ 0 := by
  cases h with
  | refused => exact Or.inl rfl
  | attributes hother => exact Or.inl rfl
  | @put other hother node news hsome hnews =>
    by_cases hplace : place = other
    · subst hplace
      obtain ⟨item, hitem⟩ := List.exists_mem_of_ne_nil news hsome
      refine Or.inr (Or.inr ⟨item, hitem, ?_⟩)
      rcases hnews item hitem with rfl | rfl
      · exact ⟨Event.create, List.mem_cons_self, by decide⟩
      · exact ⟨Event.write, List.mem_cons_self, by decide⟩
    · exact Or.inl (node?_put_other hplace node)
  | @erase other hother hroot =>
    by_cases hprefix : other <+: place
    · have hplace := hplaces other hother hprefix
      subst hplace
      exact Or.inr (Or.inl (node?_erase_self hroot))
    · exact Or.inl (node?_erase_other hprefix)
  | @move other target hother htarget =>
    by_cases hprefix : other <+: place
    · have hplace := hplaces other hother hprefix
      subst hplace
      exact Or.inr (Or.inr ⟨_, List.mem_cons_self, Event.rename, List.mem_cons_self, by decide⟩)
    · by_cases hprefix' : target <+: place
      · have hplace := hplaces target htarget hprefix'
        subst hplace
        exact Or.inr (Or.inr ⟨_, List.mem_cons_self, Event.create,
          List.mem_cons_of_mem _ List.mem_cons_self, by decide⟩)
      · exact Or.inl (node?_move_other hprefix hprefix')

end FileSystem.Effect

namespace News

/-- A watched directory stays where it is if the news is not about it or what is above it. -/
theorem carry_eq {news : News} {directory : Location}
    (h : ∀ entry ∈ news.kindsAt, ¬ entry.1 <+: directory) :
    news.carry directory = some directory := by
  have hne : ∀ {place : Location}, ¬ place <+: directory → place ≠ directory := by
    rintro place hprefix rfl
    exact hprefix List.prefix_rfl
  cases news with
  | created place =>
    rw [carry, if_neg (hne (h _ List.mem_cons_self))]
  | written place => rfl
  | removed place =>
    rw [carry, if_neg (mt List.isPrefixOf_iff_prefix.mp (h _ List.mem_cons_self))]
  | renamed place target =>
    have hplace := h _ List.mem_cons_self
    have htarget := h _ (List.mem_cons_of_mem _ List.mem_cons_self)
    rw [carry, if_neg (not_or.mpr ⟨hne hplace, hne htarget⟩),
      if_neg (mt List.isPrefixOf_iff_prefix.mp hplace)]
  | attributesChanged place => rfl

/-- News of an entry reaches a watcher of the directory. -/
theorem mem_events {news : News} {directory : Location} {name : Bytes} {kinds : UInt32}
    (h : (directory ++ [name], kinds) ∈ news.kindsAt) (known : Bytes) :
    ⟨known ++ Path.slash :: name, kinds⟩ ∈ news.events directory known := by
  rw [events, List.mem_filterMap]
  exact ⟨_, h, by simp⟩

end News

theorem Event.isRelevant_entry {directory : Location} {name : Bytes}
    (hnames : ∀ other ∈ directory ++ [name], Path.IsName other) {kinds : UInt32}
    (hkinds : kinds &&& relevantKinds ≠ 0) :
    isRelevant ⟨Path.absolute directory ++ Path.slash :: name, kinds⟩
      (Path.absolute (directory ++ [name])) = true := by
  have hclean := Path.clean_entry (fun other hother => hnames other (List.mem_append_left _ hother))
    (hnames name (by simp))
  simp [isRelevant, hclean, hkinds]

/-! ## Events that take time to arrive -/

namespace Watch

variable {α : Type} {action : Signal → α → α}

/-- A step tells of a file system exactly if it reports a change, and then of the present one. -/
theorem Loop.files?_signal? (loop : Loop α) (s : Step) :
    (loop.signal? s).bind Signal.files? =
      if (step loop.target loop.state s).2 then some loop.files else none := by
  cases s with
  | receive event =>
    rw [signal?, step]
    split <;> rfl
  | expire =>
    rw [step]
    split <;> rfl
  | tick =>
    rw [signal?]
    split <;> rfl
  | cancel => rfl

/-- A file under watch, with the events that have not yet reached the machine. -/
structure Session (α : Type) where
  loop : Loop α
  /-- The events underway, first the one that arrives next. -/
  underway : List Event

namespace Session

/-- What can happen while a file is watched. -/
inductive Move where
  /-- The file system changes. -/
  | change (change : Change)
  /-- The next event arrives. -/
  | arrive
  /-- The timer, if it runs, runs out. -/
  | expire
  /-- The waiting tick, if there is one, is taken. -/
  | tick
  deriving DecidableEq, Repr

/-- News of the file system: events set out for the machine, and the watcher goes where the
directory goes. -/
def hear (session : Session α) (news : News) : Session α :=
  match session.loop.directory with
  | none => session
  | some directory =>
    ⟨{ session.loop with directory := news.carry directory },
      session.underway ++ news.events directory (Path.parent session.loop.target)⟩

/-- One move. -/
def move (action : Signal → α → α) (session : Session α) : Move → Session α
  | .change change =>
    let (files, news) := session.loop.files.apply change
    news.foldl hear { session with loop := { session.loop with files } }
  | .arrive =>
    match session.underway with
    | [] => session
    | event :: underway => ⟨session.loop.advance action (.receive event), underway⟩
  | .expire => { session with loop := session.loop.advance action .expire }
  | .tick => { session with loop := session.loop.advance action .tick }

/-- Moves one after the other. -/
def run (action : Signal → α → α) (session : Session α) (moves : List Move) : Session α :=
  moves.foldl (move action) session

/-- What a move tells the action. -/
def signal? (session : Session α) : Move → Option Signal
  | .change _ => none
  | .arrive => session.underway.head?.bind fun event => session.loop.signal? (.receive event)
  | .expire => session.loop.signal? .expire
  | .tick => session.loop.signal? .tick

/-- What the action is told during some moves, in order. -/
def signals (action : Signal → α → α) (session : Session α) : List Move → List Signal
  | [] => []
  | m :: moves => (session.signal? m).toList ++ signals action (session.move action m) moves

/-- The file systems of the moments at which a change is reported. -/
def reported (action : Signal → α → α) (session : Session α) (moves : List Move) :
    List FileSystem :=
  (session.signals action moves).filterMap Signal.files?

/-- The loop when everything underway has arrived. -/
def deliver (action : Signal → α → α) (session : Session α) : Loop α :=
  (session.underway.map Step.receive).foldl (Loop.advance action) session.loop

theorem reported_cons (session : Session α) (m : Move) (moves : List Move) :
    session.reported action (m :: moves) =
      ((session.signal? m).bind Signal.files?).toList ++
        (session.move action m).reported action moves := by
  rw [reported, signals, List.filterMap_append, reported]
  cases session.signal? m with
  | none => rfl
  | some signal => cases signal <;> rfl

/-- A report shows the file system as it is. -/
theorem eq_files_of_signal? {session : Session α} {m : Move} {scanned : FileSystem}
    (h : (session.signal? m).bind Signal.files? = some scanned) :
    scanned = session.loop.files := by
  cases m with
  | change change => cases h
  | arrive =>
    cases hnext : session.underway.head? with
    | none => simp [signal?, hnext] at h
    | some event =>
      simp only [signal?, hnext, Option.bind_some, Loop.files?_signal?] at h
      exact (Option.some.inj (Option.ite_none_right_eq_some.mp h).2).symm
  | expire => cases h
  | tick =>
    rw [signal?, Loop.files?_signal?] at h
    exact (Option.some.inj (Option.ite_none_right_eq_some.mp h).2).symm

theorem run_arrive (session : Session α) :
    session.run action (List.replicate session.underway.length .arrive) =
      ⟨session.deliver action, []⟩ := by
  obtain ⟨loop, underway⟩ := session
  induction underway generalizing loop with
  | nil => rfl
  | cons event underway ih => exact ih (loop.advance action (.receive event))

/-- Where the watched directory stands makes no difference to the machine. -/
theorem foldl_advance_directory (list : List Step) (loop : Loop α) (directory : Option Location) :
    list.foldl (Loop.advance action) { loop with directory } =
      { list.foldl (Loop.advance action) loop with directory } := by
  induction list generalizing loop with
  | nil => rfl
  | cons s list ih => exact ih (loop.advance action s)

theorem foldl_advance_keeps (action : Signal → α → α) (list : List Step) (loop : Loop α) :
    (list.foldl (Loop.advance action) loop).directory = loop.directory ∧
      (list.foldl (Loop.advance action) loop).target = loop.target := by
  induction list generalizing loop with
  | nil => exact ⟨rfl, rfl⟩
  | cons s list ih => exact ih (loop.advance action s)

theorem deliver_hear (session : Session α) (news : News) :
    (session.hear news).deliver action = (session.deliver action).notice action news := by
  obtain ⟨hdirectory, htarget⟩ :=
    foldl_advance_keeps action (session.underway.map Step.receive) session.loop
  cases hwatched : session.loop.directory with
  | none => simp only [hear, deliver, Loop.notice, hdirectory, hwatched]
  | some directory =>
    let events := news.events directory (Path.parent session.loop.target)
    have hnotice : (session.deliver action).notice action news =
        { (events.map Step.receive).foldl (Loop.advance action) (session.deliver action) with
          directory := news.carry directory } := by
      simp only [Loop.notice, deliver, hdirectory, htarget, hwatched, events]
    have hhear : (session.hear news).deliver action =
        ((session.underway ++ events).map Step.receive).foldl (Loop.advance action)
          { session.loop with directory := news.carry directory } := by
      rw [hear, hwatched]
      rfl
    rw [hhear, hnotice, foldl_advance_directory, List.map_append, List.foldl_append]
    rfl

theorem deliver_foldl_hear (session : Session α) (news : List News) :
    (news.foldl hear session).deliver action =
      news.foldl (Loop.notice action) (session.deliver action) := by
  induction news generalizing session with
  | nil => rfl
  | cons item news ih => rw [List.foldl_cons, List.foldl_cons, ih, deliver_hear]

/-- A change whose news arrives at once is a change whose events are underway, and then all of
them arrive. -/
theorem run_change (loop : Loop α) (change : Change) :
    ∃ events, run action ⟨loop, []⟩ (.change change :: List.replicate events .arrive) =
      ⟨loop.change action change, []⟩ := by
  have hdelivered : (move action ⟨loop, []⟩ (.change change)).deliver action =
      loop.change action change := deliver_foldl_hear _ _
  refine ⟨(move action ⟨loop, []⟩ (.change change)).underway.length, ?_⟩
  rw [← hdelivered]
  exact run_arrive (move action ⟨loop, []⟩ (.change change))

/-! ## What a move does -/

/-- The session watches the file at the place of a path, and the path leads there as it did in
`files`. -/
structure Watches (files : FileSystem) (path : Bytes) (directory : Location) (name : Bytes)
    (session : Session α) : Prop where
  place : files.locate path = directory ++ [name]
  way : files.KeepsWay path session.loop.files
  watched : session.loop.directory = some directory
  target : session.loop.target = Path.absolute (directory ++ [name])
  running : session.loop.state.running = true

theorem foldl_hear {loop : Loop α} {directory : Location}
    (hwatched : loop.directory = some directory) {news : List News}
    (hcarry : ∀ item ∈ news, item.carry directory = some directory) (underway : List Event) :
    news.foldl hear ⟨loop, underway⟩ =
      ⟨loop, underway ++ news.flatMap (·.events directory (Path.parent loop.target))⟩ := by
  induction news generalizing underway with
  | nil => simp
  | cons item news ih =>
    obtain ⟨hitem, hnews⟩ := List.forall_mem_cons.mp hcarry
    have hhear : hear ⟨loop, underway⟩ item =
        ⟨loop, underway ++ item.events directory (Path.parent loop.target)⟩ := by
      rw [hear, hwatched]
      dsimp only
      rw [hitem, ← hwatched]
    rw [List.foldl_cons, hhear, ih hnews, List.flatMap_cons, List.append_assoc]

namespace Watches

variable {directory : Location} {name : Bytes} {session : Session α} {m : Move}

theorem isName (h : Watches files path directory name session) :
    ∀ other ∈ directory ++ [name], Path.IsName other := by
  rw [← h.place]
  exact Path.isName_of_mem_kept_resolve _ _

theorem parent_target (h : Watches files path directory name session) :
    Path.parent session.loop.target = Path.absolute directory := by
  rw [h.target]
  exact Path.parent_absolute (fun other hother => h.isName other (List.mem_append_left _ hother))
    (h.isName name (by simp))

/-- Nothing that a spared change names holds the watched file or its directory. -/
theorem not_prefix (h : Watches files path directory name session) {change : Change}
    (hspared : files.Spares path change) :
    ∀ place ∈ session.loop.files.touched change, ¬ place <+: directory := by
  rw [h.way.touched_eq change]
  intro place hplace
  have hdirectory := hspared place hplace _ List.mem_cons_self
  rwa [h.place, List.dropLast_concat] at hdirectory

theorem move_change (h : Watches files path directory name session) {change : Change}
    (hspared : files.Spares path change) :
    session.move action (.change change) =
      ⟨{ session.loop with files := (session.loop.files.apply change).1 },
        session.underway ++ (session.loop.files.apply change).2.flatMap
          (·.events directory (Path.absolute directory))⟩ := by
  have hcarry : ∀ item ∈ (session.loop.files.apply change).2,
      item.carry directory = some directory := by
    intro item hitem
    apply News.carry_eq
    intro entry hentry
    exact h.not_prefix hspared _
      ((FileSystem.effect_apply session.loop.files change).mem_places item hitem entry hentry)
  have hwatched : { session.loop with
      files := (session.loop.files.apply change).1 }.directory = some directory := h.watched
  rw [← h.parent_target]
  exact foldl_hear hwatched hcarry session.underway

/-- A move is a change that spares the watched file's directories, or nothing, or one step of
the machine, which takes at most one of the events underway. -/
theorem move_cases (h : Watches files path directory name session) (action : Signal → α → α)
    (hspared : ∀ change, m = .change change → files.Spares path change) :
    (∃ change, m = .change change ∧ files.Spares path change) ∨
      (session.move action m = session ∧ session.signal? m = none) ∨
      ∃ s underway, s ≠ .cancel ∧
        session.move action m = ⟨session.loop.advance action s, underway⟩ ∧
        session.signal? m = session.loop.signal? s ∧
        ∀ event ∈ session.underway, event ∈ underway ∨ s = .receive event := by
  cases m with
  | change change => exact Or.inl ⟨change, rfl, hspared change rfl⟩
  | arrive =>
    obtain ⟨loop, underway⟩ := session
    cases underway with
    | nil => exact Or.inr (Or.inl ⟨rfl, rfl⟩)
    | cons event underway =>
      refine Or.inr (Or.inr ⟨.receive event, underway, by simp, rfl, rfl, ?_⟩)
      intro other hother
      rcases List.mem_cons.mp hother with rfl | hother
      · exact Or.inr rfl
      · exact Or.inl hother
  | expire =>
    exact Or.inr (Or.inr ⟨.expire, session.underway, by simp, rfl, rfl, fun _ => Or.inl⟩)
  | tick => exact Or.inr (Or.inr ⟨.tick, session.underway, by simp, rfl, rfl, fun _ => Or.inl⟩)

theorem move (h : Watches files path directory name session)
    (hspared : ∀ change, m = .change change → files.Spares path change) :
    Watches files path directory name (session.move action m) := by
  rcases h.move_cases action hspared with ⟨change, rfl, hchange⟩ | ⟨hmove, -⟩ |
    ⟨s, underway, hcancel, hmove, -, -⟩
  · rw [h.move_change hchange]
    exact ⟨h.place, h.way.apply hchange, h.watched, h.target, h.running⟩
  · rw [hmove]
    exact h
  · rw [hmove]
    exact ⟨h.place, h.way, h.watched, h.target, (step_running _ _ s).mpr ⟨h.running, hcancel⟩⟩

/-- The action does what it is told of, and nothing else. -/
theorem value_move (h : Watches files path directory name session)
    (hspared : ∀ change, m = .change change → files.Spares path change) :
    (session.move action m).loop.value =
      (session.signal? m).toList.foldl (fun value signal => action signal value)
        session.loop.value := by
  rcases h.move_cases action hspared with ⟨change, rfl, hchange⟩ | ⟨hmove, hquiet⟩ |
    ⟨s, underway, -, hmove, hsignal, -⟩
  · rw [h.move_change hchange]
    rfl
  · rw [hmove, hquiet]
    rfl
  · rw [hmove, hsignal]
    simp only [Loop.advance]
    cases session.loop.signal? s <;> rfl

end Watches

/-! ## Fresh scans -/

/-- A change of the file at a place since it was scanned in `last` is pending, or will be. -/
def IsFresh (place : Location) (last : FileSystem) (session : Session α) : Prop :=
  session.loop.state.pending = true ∨
    (∃ event ∈ session.underway, event.isRelevant session.loop.target = true) ∨
    ∀ content, session.loop.files.node? place = some (.file content) →
      last.node? place = some (.file content)

section Fresh

variable {directory : Location} {name : Bytes} {session : Session α} {m : Move}
  {last : FileSystem}

theorem IsFresh.change (h : session.IsFresh (directory ++ [name]) last)
    (hwatches : Watches files path directory name session) {change : Change}
    (hspared : files.Spares path change) :
    (session.move action (.change change)).IsFresh (directory ++ [name]) last := by
  have hplaces : ∀ other ∈ session.loop.files.touched change,
      other <+: directory ++ [name] → other = directory ++ [name] := by
    intro other hother hprefix
    rcases List.prefix_concat_iff.mp hprefix with heq | hdirectory
    · exact heq
    · exact absurd hdirectory (hwatches.not_prefix hspared other hother)
  rw [hwatches.move_change hspared]
  rcases h with hpending | ⟨event, hevent, hrelevant⟩ | hread
  · exact Or.inl hpending
  · exact Or.inr (Or.inl ⟨event, List.mem_append_left _ hevent, hrelevant⟩)
  · rcases (FileSystem.effect_apply session.loop.files change).node?_or_news hplaces with
      hsame | hgone | ⟨news, hnews, kinds, hkinds, hrelevant⟩
    · refine Or.inr (Or.inr fun content hcontent => hread content ?_)
      rwa [← hsame]
    · -- The file is gone, of which no relevant event tells: there is nothing to have read.
      refine Or.inr (Or.inr fun content hcontent => ?_)
      rw [hgone] at hcontent
      cases hcontent
    · refine Or.inr (Or.inl ⟨_, List.mem_append_right _ (List.mem_flatMap.mpr
        ⟨news, hnews, News.mem_events hkinds _⟩), ?_⟩)
      rw [hwatches.target]
      exact Event.isRelevant_entry hwatches.isName hrelevant

theorem IsFresh.move (h : session.IsFresh (directory ++ [name]) last)
    (hwatches : Watches files path directory name session)
    (hspared : ∀ change, m = .change change → files.Spares path change) :
    (session.move action m).IsFresh (directory ++ [name])
      (((session.signal? m).bind Signal.files?).getD last) := by
  rcases hwatches.move_cases action hspared with ⟨change, rfl, hchange⟩ | ⟨hmove, hquiet⟩ |
    ⟨s, underway, -, hmove, hsignal, hevents⟩
  · exact h.change hwatches hchange
  · rw [hmove, hquiet]
    exact h
  · rw [hmove, hsignal, Loop.files?_signal?]
    have hpending := step_pending session.loop.target session.loop.state s
    cases hcalled : (step session.loop.target session.loop.state s).2 with
    | true =>
      -- The report scans the file system as it is.
      exact Or.inr (Or.inr fun content hcontent => hcontent)
    | false =>
      rcases h with hbefore | ⟨event, hevent, hrelevant⟩ | hread
      · exact Or.inl (hpending.mpr (Or.inr ⟨hbefore, hcalled⟩))
      · rcases hevents event hevent with hlater | rfl
        · exact Or.inr (Or.inl ⟨event, hlater, hrelevant⟩)
        · -- The event arrives now, and the machine runs, so it takes note of it.
          exact Or.inl (hpending.mpr (Or.inl ⟨hwatches.running, hrelevant⟩))
      · exact Or.inr (Or.inr hread)

/-- What every run keeps: the file is watched, the last scan is as fresh as it can be, the way
to the file was there at every report, and the action did what it was told of. -/
theorem Watches.run (h : Watches files path directory name session)
    (hfresh : session.IsFresh (directory ++ [name]) last) (action : Signal → α → α)
    {moves : List Move}
    (hspared : ∀ change, .change change ∈ moves → files.Spares path change) :
    Watches files path directory name (session.run action moves) ∧
      (session.run action moves).IsFresh (directory ++ [name])
        ((session.reported action moves).getLastD last) ∧
      (∀ later ∈ session.reported action moves, files.KeepsWay path later) ∧
      (session.run action moves).loop.value =
        (session.signals action moves).foldl (fun value signal => action signal value)
          session.loop.value := by
  induction moves generalizing session last with
  | nil => exact ⟨h, hfresh, by simp [reported, signals], rfl⟩
  | cons m moves ih =>
    have hfirst : ∀ change, m = .change change → files.Spares path change :=
      fun change hm => hspared change (hm ▸ List.mem_cons_self)
    obtain ⟨hwatches, hlast, hway, hvalue⟩ := ih (h.move hfirst) (hfresh.move h hfirst)
      (fun change hchange => hspared change (List.mem_cons_of_mem m hchange))
    rw [h.value_move hfirst, ← List.foldl_append] at hvalue
    rw [reported_cons]
    cases hscanned : (session.signal? m).bind Signal.files? with
    | none =>
      rw [hscanned] at hlast
      exact ⟨hwatches, hlast, hway, hvalue⟩
    | some scanned =>
      rw [hscanned] at hlast
      have hnow : scanned = session.loop.files := eq_files_of_signal? hscanned
      subst hnow
      rw [Option.toList_some, List.singleton_append, List.getLastD_cons]
      exact ⟨hwatches, hlast, List.forall_mem_cons.mpr ⟨h.way, hway⟩, hvalue⟩

end Fresh

end Session

end Watch

end BraceBalance
