/-
  Runs: stretches of a text whose characters all pass a test.

  Names, digits and blanks are read as far as their test goes.  A run that is followed by a
  character that does not pass is exactly what such a reader takes (`takeWhile_run`), so two
  ways to cut a text behind a run cut it at the same place (`run_unique`).
-/

set_option autoImplicit false

namespace BraceBalance

variable {α : Type} {test : α → Bool}

/-- A non-empty run of characters that pass a test. -/
structure IsRun (test : α → Bool) (run : List α) : Prop where
  nonempty : run ≠ []
  passes : ∀ c ∈ run, test c = true

/-- A text that ends a run in front of it: it goes on with no character that passes. -/
def EndsRun (test : α → Bool) (rest : List α) : Prop := ∀ c ∈ rest.head?, test c = false

theorem endsRun_cons {c : α} (hc : test c = false) (rest : List α) : EndsRun test (c :: rest) := by
  intro d hd
  cases hd
  exact hc

theorem IsRun.test_first {c : α} {run rest rest' : List α} (h : IsRun test run)
    (heq : run ++ rest = c :: rest') : test c = true := by
  cases run with
  | nil => exact absurd rfl h.nonempty
  | cons d run =>
    have hhead : d = c := (List.cons.inj heq).1
    exact hhead ▸ h.passes d List.mem_cons_self

/-- A run is all that a test takes if what follows does not pass. -/
theorem takeWhile_run {run rest : List α} (hrun : ∀ c ∈ run, test c = true)
    (hrest : EndsRun test rest) :
    (run ++ rest).takeWhile test = run ∧ (run ++ rest).dropWhile test = rest := by
  rw [List.takeWhile_append_of_pos hrun, List.dropWhile_append_of_pos hrun]
  cases rest with
  | nil => simp
  | cons c rest =>
    have hc : ¬ test c = true := by simp [hrest c rfl]
    rw [List.takeWhile_cons_of_neg hc, List.dropWhile_cons_of_neg hc]
    simp

/-- A word is all that is taken up to a character that it does not hold. -/
theorem takeWhile_ne_stop [BEq α] [LawfulBEq α] {stop : α} {word : List α} (h : stop ∉ word)
    (rest : List α) :
    (word ++ stop :: rest).takeWhile (fun c => c != stop) = word ∧
      (word ++ stop :: rest).dropWhile (fun c => c != stop) = stop :: rest := by
  apply takeWhile_run
  · intro c hc
    rw [bne_iff_ne]
    rintro rfl
    exact h hc
  · apply endsRun_cons
    exact bne_self_eq_false stop

theorem endsRun_dropWhile (text : List α) : EndsRun test (text.dropWhile test) := by
  intro c hc
  have hstop := List.head?_dropWhile_not test text
  rw [Option.mem_def.mp hc] at hstop
  exact hstop

/-- A text has one way to be cut behind a run that cannot be longer. -/
theorem run_unique {run run' rest rest' : List α} (hrun : ∀ c ∈ run, test c = true)
    (hrun' : ∀ c ∈ run', test c = true) (hrest : EndsRun test rest)
    (hrest' : EndsRun test rest') (h : run ++ rest = run' ++ rest') :
    run = run' ∧ rest = rest' := by
  obtain ⟨htake, hdrop⟩ := takeWhile_run hrun hrest
  obtain ⟨htake', hdrop'⟩ := takeWhile_run hrun' hrest'
  rw [h] at htake hdrop
  exact ⟨htake.symm.trans htake', hdrop.symm.trans hdrop'⟩

end BraceBalance
