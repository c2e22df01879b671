/-
  Debouncing neither loses nor invents a change.

  The machine remembers a single bit of its history: whether a relevant event has come since
  the last report.  As long as it does, exactly one of the timer and its waiting tick is there
  to report it (`State.Timed`); an event that comes in between takes the tick back and starts
  the timer anew.  So every order of events, expiries and ticks leads to one report for each
  stretch of relevant events that ends in a tick.
-/
import BraceBalance.Watch.Debounce
import Mathlib.Data.List.Induction

set_option autoImplicit false

namespace BraceBalance.Watch

variable {target : Bytes}

/-! ## Histories -/

/-- Whether a step brings a relevant event. -/
def Step.tells (target : Bytes) : Step → Bool
  | .receive event => event.isRelevant target
  | .expire => false
  | .tick => false
  | .cancel => false

/-- The state behind a history of steps. -/
def stateAfter (target : Bytes) (history : List Step) : State := (steps target .start history).1

/-- A relevant event was received, and no change was reported after it. -/
def Unreported (target : Bytes) (history : List Step) : Prop :=
  ∃ before s later, history = before ++ s :: later ∧ .cancel ∉ before ∧ s.tells target = true ∧
    (steps target (stateAfter target (before ++ [s])) later).2 = 0

theorem steps_from (state : State) (calls : Nat) (list : List Step) :
    list.foldl (fun (state, calls) s =>
        let (state, called) := step target state s
        (state, if called then calls + 1 else calls)) (state, calls) =
      ((steps target state list).1, calls + (steps target state list).2) := by
  induction list generalizing state calls with
  | nil => rfl
  | cons s list ih =>
    rw [steps, List.foldl_cons, List.foldl_cons, ih, ih]
    cases (step target state s).2 with
    | false => simp
    | true => simp [Nat.add_assoc]

theorem steps_nil (state : State) : steps target state [] = (state, 0) := rfl

theorem steps_append (state : State) (front list : List Step) :
    steps target state (front ++ list) =
      ((steps target (steps target state front).1 list).1,
        (steps target state front).2 + (steps target (steps target state front).1 list).2) := by
  rw [steps, List.foldl_append]
  exact steps_from _ _ list

theorem steps_singleton (state : State) (s : Step) :
    steps target state [s] = ((step target state s).1, if (step target state s).2 then 1 else 0) :=
  rfl

theorem steps_cons (state : State) (s : Step) (list : List Step) :
    steps target state (s :: list) =
      ((steps target (step target state s).1 list).1,
        (if (step target state s).2 then 1 else 0) +
          (steps target (step target state s).1 list).2) := by
  rw [← List.singleton_append, steps_append, steps_singleton]

theorem stateAfter_append (history list : List Step) :
    stateAfter target (history ++ list) = (steps target (stateAfter target history) list).1 := by
  rw [stateAfter, steps_append]
  rfl

theorem stateAfter_concat (history : List Step) (s : Step) :
    stateAfter target (history ++ [s]) = (step target (stateAfter target history) s).1 := by
  rw [stateAfter_append, steps_singleton]

/-! ## What one step does -/

/-- A change is reported exactly when a tick is taken while one is pending. -/
theorem step_reports_iff (target : Bytes) (state : State) (s : Step) :
    (step target state s).2 = true ↔
      s = .tick ∧ state.running = true ∧ state.ticked = true ∧ state.pending = true := by
  cases s with
  | receive event =>
    rw [step]
    split <;> simp
  | expire =>
    rw [step]
    split <;> simp
  | cancel => simp [step]
  | tick =>
    rw [step, eq_self, true_and, ← and_assoc, ← Bool.and_eq_true]
    split
    · rename_i htick
      simp [htick]
    · rename_i htick
      simp [htick]

theorem step_running (target : Bytes) (state : State) (s : Step) :
    (step target state s).1.running = true ↔ state.running = true ∧ s ≠ .cancel := by
  cases s with
  | receive event =>
    rw [step]
    split
    · unfold State.note State.stopTimer
      cases state.pending <;> cases state.armed <;> simp
    · simp
  | expire =>
    rw [step]
    split <;> simp
  | tick =>
    rw [step]
    split <;> simp
  | cancel => simp [step]

/-- A change is pending behind a step that brings a relevant event, and behind any step that
does not report it. -/
theorem step_pending (target : Bytes) (state : State) (s : Step) :
    (step target state s).1.pending = true ↔
      (state.running = true ∧ s.tells target = true) ∨
        (state.pending = true ∧ (step target state s).2 = false) := by
  cases s with
  | receive event =>
    rw [step, Step.tells, ← Bool.and_eq_true]
    split
    · rename_i hheeded
      simp [State.note, hheeded]
    · rename_i hheeded
      simp [hheeded]
  | expire =>
    rw [step, Step.tells]
    split <;> simp
  | cancel => simp [step, Step.tells]
  | tick =>
    rw [step, Step.tells]
    split <;> simp

/-- An event that is not relevant is passed over. -/
theorem step_irrelevant {event : Event} (h : event.isRelevant target = false) (state : State) :
    step target state (.receive event) = (state, false) := by
  rw [step, h, Bool.and_false]
  rfl

/-- A pending change has the timer or the waiting tick to report it, and not both; without a
pending change there is neither. -/
structure State.Timed (state : State) : Prop where
  pending_iff : state.pending = true ↔ state.armed = true ∨ state.ticked = true
  single : ¬ (state.armed = true ∧ state.ticked = true)

theorem State.timed_start : State.start.Timed := ⟨by simp [start], by simp [start]⟩

theorem State.Timed.note {state : State} (h : state.Timed) : state.note.Timed := by
  obtain ⟨hpending, hsingle⟩ := h
  unfold State.note State.stopTimer
  cases hp : state.pending with
  | false =>
    -- Nothing was pending, so no tick can be left over.
    have htick : ¬ state.ticked = true := by
      intro htick
      rw [hpending.mpr (Or.inr htick)] at hp
      cases hp
    exact ⟨by simp, by simpa using htick⟩
  | true =>
    cases ha : state.armed with
    | false => exact ⟨by simp, by simp⟩
    | true =>
      have htick : ¬ state.ticked = true := fun htick => hsingle ⟨ha, htick⟩
      exact ⟨by simp, by simpa using htick⟩

theorem State.Timed.step {state : State} (h : state.Timed) (s : Step) :
    (Watch.step target state s).1.Timed := by
  cases s with
  | receive event =>
    rw [Watch.step]
    split
    · exact h.note
    · exact h
  | expire =>
    rw [Watch.step]
    split
    · rename_i harmed
      exact ⟨by simp [h.pending_iff.mpr (Or.inl harmed)], by simp⟩
    · exact h
  | tick =>
    rw [Watch.step]
    split
    · rename_i htick
      have harmed : ¬ state.armed = true := fun harmed =>
        h.single ⟨harmed, (Bool.and_eq_true_iff.mp htick).2⟩
      exact ⟨by simp [harmed], by simp⟩
    · exact h
  | cancel => exact ⟨h.pending_iff, h.single⟩

/-! ## What a whole run does -/

theorem State.Timed.steps {state : State} (h : state.Timed) (list : List Step) :
    (Watch.steps target state list).1.Timed := by
  induction list generalizing state with
  | nil => exact h
  | cons s list ih =>
    rw [steps_cons]
    exact ih (h.step s)

theorem timed_stateAfter (history : List Step) : (stateAfter target history).Timed :=
  State.timed_start.steps history

theorem running_steps (target : Bytes) (state : State) (list : List Step) :
    (steps target state list).1.running = true ↔ state.running = true ∧ .cancel ∉ list := by
  induction list generalizing state with
  | nil => simp [steps_nil]
  | cons s list ih =>
    rw [steps_cons, ih, step_running, List.mem_cons, not_or, and_assoc, ne_comm]

theorem running_stateAfter (history : List Step) :
    (stateAfter target history).running = true ↔ .cancel ∉ history := by
  rw [stateAfter, running_steps]
  simp [State.start]

/-- One more step: it is itself the relevant event, or it does not report an earlier one. -/
theorem unreported_concat (history : List Step) (s : Step) :
    Unreported target (history ++ [s]) ↔
      (.cancel ∉ history ∧ s.tells target = true) ∨
        (Unreported target history ∧ (step target (stateAfter target history) s).2 = false) := by
  constructor
  · rintro ⟨before, event, later, hhistory, hcancel, htells, hcalls⟩
    rcases List.eq_nil_or_concat later with rfl | ⟨later, last, rfl⟩
    · obtain ⟨rfl, hlast⟩ := List.append_inj' hhistory rfl
      cases hlast
      exact Or.inl ⟨hcancel, htells⟩
    · rw [List.concat_eq_append, ← List.cons_append, ← List.append_assoc] at hhistory
      obtain ⟨rfl, hlast⟩ := List.append_inj' hhistory rfl
      cases hlast
      rw [List.concat_eq_append, steps_append, steps_singleton, ← stateAfter_append,
        List.append_assoc, List.singleton_append] at hcalls
      obtain ⟨hlater, hlast⟩ := Nat.add_eq_zero_iff.mp hcalls
      refine Or.inr ⟨⟨before, event, later, rfl, hcancel, htells, hlater⟩, ?_⟩
      simpa using hlast
  · rintro (⟨hcancel, htells⟩ | ⟨⟨before, event, later, rfl, hcancel, htells, hcalls⟩, hquiet⟩)
    · exact ⟨history, s, [], rfl, hcancel, htells, rfl⟩
    · refine ⟨before, event, later ++ [s], by simp, hcancel, htells, ?_⟩
      have hstate : (steps target (stateAfter target (before ++ [event])) later).1 =
          stateAfter target (before ++ event :: later) := by
        rw [← stateAfter_append, List.append_assoc, List.singleton_append]
      rw [steps_append, steps_singleton, hcalls, hstate, hquiet]
      rfl

/-- What is pending is exactly what is not yet reported. -/
theorem pending_stateAfter (history : List Step) :
    (stateAfter target history).pending = true ↔ Unreported target history := by
  induction history using List.reverseRecOn with
  | nil => simp [stateAfter, steps_nil, State.start, Unreported]
  | append_singleton history s ih =>
    rw [stateAfter_concat, step_pending, unreported_concat, running_stateAfter, ih]

/-! ## Every relevant event is reported -/

/-- As long as nothing is reported, what is pending stays pending. -/
theorem pending_steps {state : State} (hpending : state.pending = true) {list : List Step}
    (hquiet : (steps target state list).2 = 0) : (steps target state list).1.pending = true := by
  induction list generalizing state with
  | nil => exact hpending
  | cons s list ih =>
    rw [steps_cons] at hquiet ⊢
    obtain ⟨hfirst, hrest⟩ := Nat.add_eq_zero_iff.mp hquiet
    have hsilent : (step target state s).2 = false := by simpa using hfirst
    exact ih ((step_pending target state s).mpr (Or.inr ⟨hpending, hsilent⟩)) hrest

/-- As long as nothing is reported and no relevant event comes, a waiting tick waits on. -/
theorem ticked_steps {state : State} (htimed : state.Timed) (htick : state.ticked = true)
    {list : List Step} (htells : ∀ s ∈ list, s.tells target = false)
    (hcancel : state.running = true) (hlist : .cancel ∉ list)
    (hquiet : (steps target state list).2 = 0) : (steps target state list).1.ticked = true := by
  induction list generalizing state with
  | nil => exact htick
  | cons s list ih =>
    rw [steps_cons] at hquiet ⊢
    obtain ⟨hfirst, hrest⟩ := Nat.add_eq_zero_iff.mp hquiet
    have hsilent : ¬ (step target state s).2 = true := by simpa using hfirst
    have hpending := htimed.pending_iff.mpr (Or.inr htick)
    have hsame : (step target state s).1 = state := by
      cases s with
      | receive event => rw [step_irrelevant (htells _ List.mem_cons_self)]
      | expire =>
        have harmed : ¬ state.armed = true := fun harmed => htimed.single ⟨harmed, htick⟩
        rw [step, if_neg harmed]
      | tick =>
        exact absurd ((step_reports_iff target _ _).mpr ⟨rfl, hcancel, htick, hpending⟩) hsilent
      | cancel => exact absurd List.mem_cons_self hlist
    rw [hsame] at hrest ⊢
    exact ih htimed htick (fun s hs => htells s (List.mem_cons_of_mem _ hs)) hcancel
      (fun h => hlist (List.mem_cons_of_mem _ h)) hrest

theorem ticked_expire (target : Bytes) {state : State} (htimed : state.Timed)
    (hpending : state.pending = true) : (step target state .expire).1.ticked = true := by
  rw [step]
  split
  · rfl
  · rename_i harmed
    exact (htimed.pending_iff.mp hpending).resolve_left harmed

/-- A waiting tick that is taken reports the change, if no relevant event came before. -/
theorem reports_ticked {state : State} (htimed : state.Timed) (htick : state.ticked = true)
    (hrunning : state.running = true) {list : List Step} (hcancel : .cancel ∉ list)
    (htells : ∀ s ∈ list, s.tells target = false) :
    0 < (steps target state (list ++ [.tick])).2 := by
  rw [steps_append, steps_singleton]
  by_cases hquiet : (steps target state list).2 = 0
  · have hticked := ticked_steps htimed htick htells hrunning hcancel hquiet
    have hpending := (htimed.steps list).pending_iff.mpr (Or.inr hticked)
    have hon := (running_steps target state list).mpr ⟨hrunning, hcancel⟩
    rw [if_pos ((step_reports_iff target _ _).mpr ⟨rfl, hon, hticked, hpending⟩)]
    omega
  · omega

/-- A pending change is reported as soon as the timer has run out and its tick is taken, with
no relevant event in between. -/
theorem reports_pending {state : State} (htimed : state.Timed) (hpending : state.pending = true)
    (hrunning : state.running = true) {front middle : List Step} (hfront : .cancel ∉ front)
    (hmiddle : .cancel ∉ middle) (htells : ∀ s ∈ middle, s.tells target = false) :
    0 < (steps target state (front ++ .expire :: (middle ++ [.tick]))).2 := by
  rw [steps_append, steps_cons]
  by_cases hquiet : (steps target state front).2 = 0
  · have htimed' : (steps target state front).1.Timed := htimed.steps front
    have hticked := ticked_expire target htimed' (pending_steps hpending hquiet)
    have hon := (running_steps target state front).mpr ⟨hrunning, hfront⟩
    have hexpired := (step_running target _ .expire).mpr ⟨hon, by simp⟩
    have hreports := reports_ticked (htimed'.step .expire) hticked hexpired hmiddle htells
    omega
  · omega

/-! ## No change is invented -/

theorem steps_stopped {state : State} (h : ¬ state.running = true) (list : List Step) :
    (steps target state list).2 = 0 := by
  induction list generalizing state with
  | nil => rfl
  | cons s list ih =>
    have hsilent : ¬ (step target state s).2 = true := fun hreports =>
      h ((step_reports_iff target state s).mp hreports).2.1
    have hnext : ¬ (step target state s).1.running = true := fun hrunning =>
      h ((step_running target state s).mp hrunning).1
    rw [steps_cons, if_neg hsilent, ih hnext]

/-- A step gives out at most one of what is pending and what it brings. -/
theorem step_balance (target : Bytes) (state : State) (s : Step) :
    (step target state s).2.toNat + (step target state s).1.pending.toNat ≤
      state.pending.toNat + (s.tells target).toNat := by
  have hpending := step_pending target state s
  cases hreports : (step target state s).2 with
  | false =>
    rw [hreports] at hpending
    cases hnext : (step target state s).1.pending with
    | false => simp
    | true =>
      rcases hpending.mp hnext with ⟨-, htells⟩ | ⟨hbefore, -⟩
      · simp [htells]
      · simp [hbefore]
  | true =>
    obtain ⟨rfl, -, -, hbefore⟩ := (step_reports_iff target state s).mp hreports
    rw [hreports] at hpending
    have hnext : (step target state .tick).1.pending = false := by
      rw [← Bool.not_eq_true, hpending]
      simp [Step.tells]
    rw [hnext, hbefore]
    simp

/-- The relevant events that the machine receives, as steps. -/
def heeded (target : Bytes) (history : List Step) : List Step :=
  (history.takeWhile (· != .cancel)).filter (Step.tells target)

theorem calls_le (target : Bytes) (state : State) (list : List Step) :
    (steps target state list).2 ≤ state.pending.toNat + (heeded target list).length := by
  induction list generalizing state with
  | nil => exact Nat.zero_le _
  | cons s list ih =>
    have hbalance := step_balance target state s
    rw [steps_cons]
    by_cases hcancel : s = .cancel
    · subst hcancel
      have hstopped : ¬ (step target state .cancel).1.running = true := by simp [step]
      rw [steps_stopped hstopped]
      simp [step]
    · have hheeded : (heeded target (s :: list)).length =
          (s.tells target).toNat + (heeded target list).length := by
        have hkept : (s != .cancel) = true := bne_iff_ne.mpr hcancel
        rw [heeded, List.takeWhile_cons, if_pos hkept, List.filter_cons, heeded]
        cases s.tells target <;> simp [Nat.add_comm]
      have hrest := ih (step target state s).1
      have hcalled :
          (if (step target state s).2 then 1 else 0) = (step target state s).2.toNat := by
        cases (step target state s).2 <;> rfl
      rw [hheeded, hcalled]
      omega

/-- A history less some of its events that are not relevant. -/
inductive Thins (target : Bytes) : List Step → List Step → Prop where
  | nil : Thins target [] []
  | keep (s : Step) {history thinned : List Step} (h : Thins target history thinned) :
    Thins target (s :: history) (s :: thinned)
  | drop {event : Event} (hevent : event.isRelevant target = false) {history thinned : List Step}
    (h : Thins target history thinned) : Thins target (.receive event :: history) thinned

theorem Thins.steps_eq {history thinned : List Step} (h : Thins target history thinned)
    (state : State) : steps target state thinned = steps target state history := by
  induction h generalizing state with
  | nil => rfl
  | keep s h ih => rw [steps_cons, steps_cons, ih]
  | drop hevent h ih => simp [steps_cons, step_irrelevant hevent, ih]

/-! ## Bursts -/

/-- Steps among which no tick is taken report nothing and only gather what is pending. -/
theorem steps_burst {state : State} (hrunning : state.running = true) {burst : List Step}
    (htick : .tick ∉ burst) (hcancel : .cancel ∉ burst) :
    (steps target state burst).2 = 0 ∧
      (steps target state burst).1.pending =
        (state.pending || burst.any (Step.tells target)) := by
  induction burst generalizing state with
  | nil => simp [steps_nil]
  | cons s burst ih =>
    rw [List.mem_cons, not_or] at htick hcancel
    have hsilent : ¬ (step target state s).2 = true := fun hreports =>
      htick.1 ((step_reports_iff target state s).mp hreports).1.symm
    have hnext : (step target state s).1.pending = (state.pending || s.tells target) := by
      rw [Bool.eq_iff_iff, step_pending, Bool.or_eq_true]
      simp [hrunning, hsilent, or_comm]
    have hkept : (step target state s).1.running = true :=
      (step_running target state s).mpr ⟨hrunning, Ne.symm hcancel.1⟩
    obtain ⟨hcalls, hpending⟩ := ih hkept htick.2 hcancel.2
    rw [steps_cons, if_neg hsilent, hcalls, hpending, hnext, List.any_cons, Bool.or_assoc]
    exact ⟨rfl, rfl⟩

/-- When the timer has run out and its tick is taken, what is pending is reported, once. -/
theorem steps_settle {state : State} (htimed : state.Timed) (hrunning : state.running = true) :
    (steps target state [.expire, .tick]).2 = if state.pending then 1 else 0 := by
  have hexpire : ¬ (step target state .expire).2 = true := by
    rw [step_reports_iff]
    simp
  have hrunning' : (step target state .expire).1.running = true :=
    (step_running target state .expire).mpr ⟨hrunning, by simp⟩
  have hreports : (step target (step target state .expire).1 .tick).2 = true ↔
      state.pending = true := by
    rw [step_reports_iff]
    constructor
    · rintro ⟨-, -, -, hpending⟩
      rcases (step_pending target state .expire).mp hpending with ⟨-, htells⟩ | ⟨hpending, -⟩
      · cases htells
      · exact hpending
    · intro hpending
      have hticked := ticked_expire target htimed hpending
      exact ⟨rfl, hrunning', hticked, (htimed.step .expire).pending_iff.mpr (Or.inr hticked)⟩
  rw [steps_cons, steps_singleton, if_neg hexpire, Nat.zero_add]
  simp only [hreports]

/-! ## Every run from the start -/

/-- Behind every history: a change is pending exactly if a relevant event is not yet reported,
and then the timer runs or its tick waits.  A change is reported exactly when a tick is taken
with such an event.  Whatever happens, the event is reported once the timer runs out and its
tick is taken before the next relevant event, unless watching is called off.  There are no more
reports than relevant events, other events change nothing, and a burst of events up to the tick
is reported once if one of them is relevant, and otherwise not at all. -/
theorem debounce_reports_each_change (target : Bytes) (history : List Step) :
    let state := stateAfter target history
    (state.pending = true ↔ Unreported target history) ∧
    (state.pending = true → state.armed = true ∨ state.ticked = true) ∧
    (∀ s, (step target state s).2 = true ↔
      s = .tick ∧ .cancel ∉ history ∧ state.ticked = true ∧ Unreported target history) ∧
    (Unreported target history → .cancel ∉ history → ∀ front middle : List Step,
      .cancel ∉ front → .cancel ∉ middle → (∀ s ∈ middle, s.tells target = false) →
      0 < (steps target state (front ++ .expire :: (middle ++ [.tick]))).2) ∧
    (steps target .start history).2 ≤ (heeded target history).length ∧
    (∀ thinned, Thins target history thinned →
      steps target .start thinned = steps target .start history) ∧
    (¬ Unreported target history → .cancel ∉ history → ∀ burst : List Step,
      .tick ∉ burst → .cancel ∉ burst →
      (steps target state (burst ++ [.expire, .tick])).2 =
        if burst.any (Step.tells target) then 1 else 0) := by
  intro state
  have htimed : state.Timed := timed_stateAfter history
  have hpending : state.pending = true ↔ Unreported target history := pending_stateAfter history
  have hrunning : state.running = true ↔ .cancel ∉ history := running_stateAfter history
  have hcalls : (steps target .start history).2 ≤ (heeded target history).length := by
    simpa [State.start] using calls_le target .start history
  refine ⟨hpending, htimed.pending_iff.mp, ?_, ?_, hcalls,
    fun thinned hthins => hthins.steps_eq .start, ?_⟩
  · intro s
    rw [step_reports_iff, hpending, hrunning]
  · intro hunreported hon front middle hfront hmiddle htells
    exact reports_pending htimed (hpending.mpr hunreported) (hrunning.mpr hon) hfront hmiddle
      htells
  · intro hreported hon burst htick hcancel
    have hnone : state.pending = false := by
      rw [← Bool.not_eq_true, hpending]
      exact hreported
    obtain ⟨hquiet, hgathered⟩ := steps_burst (hrunning.mpr hon) htick hcancel
    have hburst := (running_steps target state burst).mpr ⟨hrunning.mpr hon, hcancel⟩
    rw [steps_append, hquiet, steps_settle (htimed.steps burst) hburst, hgathered, hnone,
      Nat.zero_add, Bool.false_or]

/-- The timer has run out when a second event comes; the change is still reported, once. -/
theorem debounce_reports_each_change_restarted :
    let target := Bytes.ofString "/f"
    let event : Event := ⟨Bytes.ofString "/./f", Event.write⟩
    let history := [Step.receive event, .expire, .receive event]
    Unreported target history ∧ .cancel ∉ history ∧
      0 < (steps target (stateAfter target history) [.expire, .tick]).2 ∧
      (steps target .start (history ++ [.expire, .tick])).2 = 1 := by
  intro target event history
  have hpending : (stateAfter target history).pending = true := by decide +kernel
  have hcancel : .cancel ∉ history := by decide
  obtain ⟨hiff, -, -, hreported, -, -, -⟩ := debounce_reports_each_change target history
  obtain ⟨hiff', -, -, -, -, -, hburst⟩ := debounce_reports_each_change target []
  have hnone : ¬ Unreported target [] := mt hiff'.mpr (by decide)
  refine ⟨hiff.mp hpending, hcancel, hreported (hiff.mp hpending) hcancel [] [] (by simp) (by simp)
    (by simp), ?_⟩
  have honce := hburst hnone (by simp) history (by decide) hcancel
  rw [if_pos (by decide +kernel)] at honce
  exact honce

end BraceBalance.Watch
