/-
  Publishing to a sink that fails.

  A published scan is a list of writes: a line for each extra closing brace that is told to
  the listener, and one closing write if the scan succeeds.  The writes are made in order up
  to the first one that is refused (`Sink.writeAll_limited`), so what is written, how many
  writes are tried and whether the report is returned depend only on that list and on the
  number of writes that the sink takes.  The fault of a refused write is passed on, unless the
  scan itself fails, which comes first.
-/
import BraceBalance.Publish

set_option autoImplicit false

namespace BraceBalance

/-! ## Writes in a row -/

namespace Sink

/-- Writes in two parts: the second part is tried only if all of the first succeeded. -/
theorem writeAll_append (sink : Sink) (front rest : List Bytes) :
    sink.writeAll (front ++ rest) =
      match sink.writeAll front with
      | (next, none) => next.writeAll rest
      | (next, some fault) => (next, some fault) := by
  induction front generalizing sink with
  | nil => rfl
  | cons bytes front ih =>
    rw [List.cons_append, writeAll, writeAll]
    rcases sink.write bytes with ⟨next, refused⟩
    cases refused with
    | none => exact ih next
    | some fault => rfl

theorem writeAll_singleton (sink : Sink) (bytes : Bytes) :
    sink.writeAll [bytes] = sink.write bytes := by
  rw [writeAll]
  rcases sink.write bytes with ⟨next, refused⟩
  cases refused <;> rfl

/-- A sink that takes `limit` more writes takes the first `limit` of a list; the write behind
them, if there is one, is tried and refused with the fault of the sink. -/
theorem writeAll_limited (limit attempts : Nat) (fault : WriteFault) (accepted : Array Bytes)
    (writes : List Bytes) :
    writeAll ⟨some ⟨limit, fault⟩, accepted, attempts⟩ writes =
      (⟨some ⟨limit - writes.length, fault⟩, accepted ++ (writes.take limit).toArray,
        attempts + min (limit + 1) writes.length⟩,
        if writes.length ≤ limit then none else some fault) := by
  induction writes generalizing limit attempts accepted with
  | nil => simp [writeAll]
  | cons bytes writes ih =>
    rw [writeAll]
    cases limit with
    | zero => simp [write]
    | succ limit =>
      simp only [write, ih, List.length_cons, List.take_succ_cons, Nat.add_le_add_iff_right,
        Nat.add_sub_add_right, Nat.add_min_add_right, Prod.mk.injEq, Sink.mk.injEq, and_true,
        true_and]
      exact ⟨by simp, by omega⟩

/-- A sink that takes every write takes them all. -/
theorem writeAll_unbounded (attempts : Nat) (accepted : Array Bytes) (writes : List Bytes) :
    writeAll ⟨none, accepted, attempts⟩ writes =
      (⟨none, accepted ++ writes.toArray, attempts + writes.length⟩, none) := by
  induction writes generalizing attempts accepted with
  | nil => simp [writeAll]
  | cons bytes writes ih =>
    simp only [writeAll, write, ih, List.length_cons]
    simp [Nat.add_assoc, Nat.add_comm 1]

/-- What becomes of writes to an unused sink that takes `limit` of them. -/
theorem writeAll_empty (limit : Nat) (fault : WriteFault) (writes : List Bytes) :
    let written := (empty (some ⟨limit, fault⟩)).writeAll writes
    written.1.contents = (writes.take limit).flatten ∧
      written.1.attempts = min (limit + 1) writes.length ∧
      written.2 = if writes.length ≤ limit then none else some fault := by
  simp [empty, writeAll_limited, contents]

end Sink

/-! ## Publishing as a list of writes -/

section Publish

variable {scan : Bool → ScanRun} {format : Format}

/-- A scan that succeeds is published by its lines and the closing write in a row. -/
theorem publish_of_ok {report : Report} (h : (scan format.streams).result = .ok report)
    (name : Bytes) (sink : Sink) :
    let writes := (scan format.streams).heard.map Report.extraClosingLine ++
      [format.closing report]
    publish scan name format sink =
      ⟨match (sink.writeAll writes).2 with
        | none => .ok report
        | some fault => .error (.writing fault),
        (sink.writeAll writes).1, (scan format.streams).log⟩ := by
  simp only [publish, h, Sink.writeAll_append, Sink.writeAll_singleton]
  rcases sink.writeAll ((scan format.streams).heard.map Report.extraClosingLine) with
    ⟨streamed, refused⟩
  cases refused with
  | some fault => rfl
  | none =>
    dsimp only
    rcases streamed.write (format.closing report) with ⟨last, closed⟩
    cases closed <;> rfl

/-- A scan that fails is published by its lines alone, and its error is logged. -/
theorem publish_of_error {error : ScanError} (h : (scan format.streams).result = .error error)
    (name : Bytes) (sink : Sink) :
    publish scan name format sink =
      ⟨.error (.scanning error),
        (sink.writeAll ((scan format.streams).heard.map Report.extraClosingLine)).1,
        (scan format.streams).log ++ [.scanFailed name error.message]⟩ := by
  simp only [publish, h]

theorem publish_unbounded_result {report : Report}
    (hscan : (scan format.streams).result = .ok report) (name : Bytes) {sink : Sink}
    (h : sink.allowance = none) :
    (publish scan name format sink).result = .ok report := by
  obtain ⟨allowance, accepted, attempts⟩ := sink
  cases h
  rw [publish_of_ok hscan]
  simp [Sink.writeAll_unbounded]

/-- A sink that takes every write gets what an unused one would get, behind what it holds. -/
theorem publish_unbounded (scan : Bool → ScanRun) (name : Bytes) (format : Format) {sink : Sink}
    (h : sink.allowance = none) :
    (publish scan name format sink).sink.allowance = none ∧
      (publish scan name format sink).sink.contents =
        sink.contents ++ (publish scan name format .unbounded).sink.contents := by
  obtain ⟨allowance, accepted, attempts⟩ := sink
  cases h
  cases hresult : (scan format.streams).result with
  | ok report =>
    rw [publish_of_ok hresult, publish_of_ok hresult]
    simp [Sink.unbounded, Sink.empty, Sink.writeAll_unbounded, Sink.contents]
  | error error =>
    rw [publish_of_error hresult, publish_of_error hresult]
    simp [Sink.unbounded, Sink.empty, Sink.writeAll_unbounded, Sink.contents]

end Publish

theorem Format.streams_ofInt (number : Int) :
    (ofInt number).streams = decide (number = 0) := by
  unfold ofInt
  split
  · rename_i hzero
    simp [streams, hzero]
  · rename_i hzero
    split <;> simp [streams, hzero]

theorem Format.closing_ofInt (number : Int) (report : Report) :
    (ofInt number).closing report = if number = 1 then report.json else report.summary := by
  unfold ofInt
  split
  · rename_i hzero
    simp [closing, hzero]
  · split <;> rfl

/-- What publishing writes, tries, logs and returns when the sink takes the first `limit`
writes and refuses all others with some fault, for an engine that would tell a listener of any
positions and then ends with any result.  A line is written for each position if the format is
text; a successful scan is closed by the JSON document or the summary.  The report is returned
exactly if all of that was written, and otherwise an error that carries the fault of the sink
and repeats its words.  A failed scan is reported as such, whatever became of the lines. -/
theorem publish_with_limited_writes (extras : List Position)
    (result : Except ScanError Report) (log : List Log.Entry) (name : Bytes) (number : Int)
    (limit : Nat) (fault : WriteFault) :
    let engine := fun listening => ScanRun.mk (if listening then extras else []) result log
    let published := publish engine name (Format.ofInt number) (Sink.empty (some ⟨limit, fault⟩))
    let line := fun position : Position =>
      Bytes.ofString "Extra closing brace at line " ++ Decimal.ofInt position.line ++
        Bytes.ofString ", pos " ++ Decimal.ofInt position.column ++ [lf]
    let lines := if number = 0 then extras.map line else []
    match result with
    | .ok report =>
      let writes := lines ++ [if number = 1 then report.json else report.summary]
      published.sink.contents = (writes.take limit).flatten ∧
        published.sink.attempts = min (limit + 1) writes.length ∧
        published.log = log ∧
        (published.result = .ok report ↔ writes.length ≤ limit) ∧
        (published.result = .error (.writing fault) ↔ limit < writes.length) ∧
        ∀ error, published.result = .error error →
          error.message = Bytes.ofString "error writing report: " ++ fault.message
    | .error error =>
      published.sink.contents = (lines.take limit).flatten ∧
        published.sink.attempts = min (limit + 1) lines.length ∧
        published.log = log ++ [.scanFailed name error.message] ∧
        published.result = .error (.scanning error) := by
  intro engine published line lines
  have hlines : (engine (Format.ofInt number).streams).heard.map Report.extraClosingLine =
      lines := by
    simp only [engine, lines, Format.streams_ofInt, decide_eq_true_eq]
    split <;> rfl
  cases result with
  | ok report =>
    have hpublished : published = _ :=
      publish_of_ok rfl name (Sink.empty (some ⟨limit, fault⟩))
    rw [hlines, Format.closing_ofInt] at hpublished
    dsimp only
    generalize lines ++ [if number = 1 then report.json else report.summary] = writes
      at hpublished ⊢
    obtain ⟨hcontents, hattempts, hrefused⟩ := Sink.writeAll_empty limit fault writes
    rw [hrefused] at hpublished
    rw [hpublished]
    refine ⟨hcontents, hattempts, rfl, ?_⟩
    by_cases hall : writes.length ≤ limit
    · simp [hall, Nat.not_lt.mpr hall]
    · rw [if_neg hall]
      refine ⟨by simp [hall], by simp [Nat.not_le.mp hall], ?_⟩
      intro error herror
      cases herror
      rfl
  | error error =>
    have hpublished : published = _ :=
      publish_of_error rfl name (Sink.empty (some ⟨limit, fault⟩))
    rw [hlines] at hpublished
    obtain ⟨hcontents, hattempts, -⟩ := Sink.writeAll_empty limit fault lines
    rw [hpublished]
    exact ⟨hcontents, hattempts, rfl, rfl⟩

/-- Two extra closing braces, and a sink that is full behind the first line. -/
theorem publish_with_limited_writes_full :
    let extras : List Position := [⟨1, 0⟩, ⟨2, 3⟩]
    let report : Report := ⟨[0x66], extras, [], []⟩
    let engine := fun listening => ScanRun.mk (if listening then extras else []) (.ok report) []
    let fault : WriteFault := ⟨Bytes.ofString "no space left on device"⟩
    let published := publish engine [0x66] .text (Sink.empty (some ⟨1, fault⟩))
    published.sink.contents = Bytes.ofString "Extra closing brace at line 1, pos 0\n" ∧
      published.sink.attempts = 2 ∧
      ∃ error, published.result = .error error ∧ error = .writing fault ∧
        error.message = Bytes.ofString "error writing report: no space left on device" := by
  intro extras report engine fault published
  obtain ⟨hcontents, hattempts, -, -, hrefused, hmessage⟩ :=
    publish_with_limited_writes extras (.ok report) [] [0x66] 0 1 fault
  have hresult : published.result = .error (.writing fault) := hrefused.mpr (by simp [extras])
  refine ⟨hcontents.trans (by decide +kernel), hattempts, _, hresult, rfl, ?_⟩
  exact (hmessage _ hresult).trans (by decide +kernel)

end BraceBalance
