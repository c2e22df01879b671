/-
  What a scan finds, as a function of the text alone.

  The scan keeps its findings in a progress that is changed character by character.  Seen
  from outside it does two independent things: it matches the braces of all lines, each at
  its line and column, and it collects the declaration of each line.  `Report.ofContent` says
  so without a loop, and `Source.scan_result` ties the scan to it.  Scanning two texts one
  after the other is then a matter of joining what each leaves unmatched.
-/
import BraceBalance.Proofs.Delivery
import BraceBalance.Proofs.Matching
import BraceBalance.Scan

set_option autoImplicit false

namespace BraceBalance

/-! ## Braces at their places -/

/-- The brace that a character is. -/
def Brace.ofChar? (c : Char) : Option Brace :=
  if c = '{' then some .opening else if c = '}' then some .closing else none

section Placed

variable {γ α β : Type} (brace? : γ → Option Brace)

/-- The braces of a text, each at the place of its index; the first index is `start`. -/
def placed (place : Nat → α) (start : Nat) (text : List γ) : List (Brace × α) :=
  (text.zipIdx start).filterMap fun entry => (brace? entry.1).map (·, place entry.2)

variable {brace?}

@[simp] theorem placed_nil (place : Nat → α) (start : Nat) :
    placed brace? place start [] = [] := rfl

theorem placed_cons (place : Nat → α) (start : Nat) (c : γ) (text : List γ) :
    placed brace? place start (c :: text) =
      ((brace? c).map (·, place start)).toList ++ placed brace? place (start + 1) text := by
  simp only [placed, List.zipIdx_cons, List.filterMap_cons]
  cases brace? c <;> rfl

theorem placed_append (place : Nat → α) (start : Nat) (front text : List γ) :
    placed brace? place start (front ++ text) =
      placed brace? place start front ++ placed brace? place (start + front.length) text := by
  rw [placed, List.zipIdx_append, List.filterMap_append]
  rfl

/-- Counting on from a later index is counting from an earlier one to later places. -/
theorem placed_add (place : Nat → α) (start offset : Nat) (text : List γ) :
    placed brace? place (start + offset) text =
      placed brace? (fun index => place (index + offset)) start text := by
  induction text generalizing start with
  | nil => rfl
  | cons c text ih =>
    rw [placed_cons, placed_cons, Nat.add_right_comm, ih (start + 1)]

theorem placed_congr {place place' : Nat → α} {start : Nat} {text : List γ}
    (h : ∀ index, start ≤ index → index < start + text.length → place index = place' index) :
    placed brace? place start text = placed brace? place' start text := by
  induction text generalizing start with
  | nil => rfl
  | cons c text ih =>
    simp only [List.length_cons] at h
    rw [placed_cons, placed_cons, h start (Nat.le_refl _) (by omega),
      ih (fun index hlo hhi => h index (by omega) (by omega))]

theorem placed_eq_nil {place : Nat → α} {start : Nat} {text : List γ}
    (h : ∀ c ∈ text, brace? c = none) : placed brace? place start text = [] := by
  induction text generalizing start with
  | nil => rfl
  | cons c text ih =>
    rw [placed_cons, h c List.mem_cons_self, ih (fun d hd => h d (List.mem_cons_of_mem c hd))]
    rfl

theorem map_placed (f : α → β) (place : Nat → α) (start : Nat) (text : List γ) :
    (placed brace? place start text).map (fun brace => (brace.1, f brace.2)) =
      placed brace? (fun index => f (place index)) start text := by
  induction text generalizing start with
  | nil => rfl
  | cons c text ih =>
    rw [placed_cons, placed_cons, List.map_append, ih]
    cases brace? c <;> rfl

end Placed

namespace Line

/-- The braces of a line, each at its position. -/
def braces (line : Line) : List (Brace × Position) :=
  placed Brace.ofChar? (fun column => ⟨line.number, column⟩) 0 line.text

/-- The declaration of a line. -/
def site? (line : Line) : Option FunctionSite :=
  (Declaration.detect? line.text).map fun name => ⟨Utf8.encode name, line.number⟩

end Line

/-! ## The scan, step by step -/

namespace Scan.Progress

/-- A progress seen from outside: the unmatched braces and the declarations it stands for. -/
structure Shows (listening : Bool) (progress : Progress) (found : Unmatched Position)
    (sites : List FunctionSite) : Prop where
  extraClosing : progress.extraClosing.toList = found.extra
  pending : progress.pending.toList = found.waiting.map OpenBrace.at
  functions : progress.functions.toList = sites
  heard : progress.heard.toList = if listening then found.extra else []

variable {listening : Bool} {progress : Progress} {found : Unmatched Position}
  {sites : List FunctionSite}

theorem shows_start : Shows listening start Unmatched.empty [] where
  extraClosing := rfl
  pending := rfl
  functions := rfl
  heard := by cases listening <;> rfl

theorem Shows.push (h : Shows listening progress found sites) (position : Position) :
    Shows listening { progress with pending := progress.pending.push position }
      (found.step (.opening, position)) sites where
  extraClosing := h.extraClosing
  pending := by simp [h.pending]
  functions := h.functions
  heard := h.heard

theorem Shows.close (h : Shows listening progress found sites) (position : Position) :
    Shows listening (progress.close listening position) (found.step (.closing, position))
      sites := by
  unfold Progress.close
  cases hpop : progress.pending.pop? with
  | none =>
    have hwaiting : found.waiting = [] := by
      have hnil := Pending.pop?_eq_none_iff.mp hpop
      rw [h.pending, List.map_eq_nil_iff] at hnil
      exact hnil
    rw [Unmatched.step_closing_extra hwaiting]
    refine ⟨?_, h.pending, h.functions, ?_⟩
    · simp [h.extraClosing]
    · have hheard := h.heard
      cases listening with
      | false => exact hheard
      | true => simpa using hheard
  | some rest =>
    have hwaiting : found.waiting ≠ [] := by
      intro hnil
      have hsome : progress.pending.pop? = none := by
        rw [Pending.pop?_eq_none_iff, h.pending, hnil]
        rfl
      rw [hpop] at hsome
      cases hsome
    rw [Unmatched.step_closing_pair hwaiting]
    refine ⟨h.extraClosing, ?_, h.functions, h.heard⟩
    rw [Pending.toList_pop? hpop, h.pending, List.map_dropLast]

/-- One character is one step of the matching if it is a brace, and nothing else. -/
theorem Shows.meet (h : Shows listening progress found sites) (position : Position) (c : Char) :
    Shows listening (progress.meet listening position c)
      (((Brace.ofChar? c).map (·, position)).toList.foldl Unmatched.step found) sites := by
  unfold Progress.meet Brace.ofChar?
  by_cases hopen : c = '{'
  · rw [if_pos hopen, if_pos hopen]
    exact h.push position
  · rw [if_neg hopen, if_neg hopen]
    by_cases hclose : c = '}'
    · rw [if_pos hclose, if_pos hclose]
      exact h.close position
    · rw [if_neg hclose, if_neg hclose]
      exact h

theorem Shows.walk (number column : Nat) (text : List Char)
    (h : Shows listening progress found sites) :
    Shows listening (progress.walk listening number column text)
      ((placed Brace.ofChar? (fun column => (⟨number, column⟩ : Position)) column text).foldl
        Unmatched.step found) sites := by
  induction text generalizing column progress found with
  | nil => exact h
  | cons c text ih =>
    rw [placed_cons, List.foldl_append]
    exact ih (column + 1) (h.meet ⟨number, column⟩ c)

theorem Shows.declare (h : Shows listening progress found sites) (line : Line) :
    Shows listening (progress.declare line) found (sites ++ line.site?.toList) := by
  unfold Progress.declare Line.site?
  cases Declaration.detect? line.text with
  | none =>
    rw [Option.map_none, Option.toList_none, List.append_nil]
    exact h
  | some name =>
    refine ⟨h.extraClosing, h.pending, ?_, h.heard⟩
    simp [h.functions]

/-- One line: its declaration is noted, and its braces are matched. -/
theorem Shows.readLine (h : Shows listening progress found sites) (line : Line) :
    Shows listening (progress.readLine listening line)
      (line.braces.foldl Unmatched.step found) (sites ++ line.site?.toList) :=
  (h.declare line).walk line.number 0 line.text

theorem Shows.readLines (lines : List Line) (h : Shows listening progress found sites) :
    Shows listening (lines.foldl (Progress.readLine listening) progress)
      ((lines.flatMap Line.braces).foldl Unmatched.step found)
      (sites ++ lines.filterMap Line.site?) := by
  induction lines generalizing progress found sites with
  | nil => simpa using h
  | cons line lines ih =>
    have hrest := ih (h.readLine line)
    rw [List.append_assoc] at hrest
    rw [List.foldl_cons, List.flatMap_cons, List.foldl_append, List.filterMap_cons]
    cases hsite : line.site? with
    | none => simpa [hsite] using hrest
    | some site => simpa [hsite] using hrest

end Scan.Progress

/-! ## The whole scan -/

/-- What a clean scan of a text reports. -/
def Report.ofContent (filename content : Bytes) : Report :=
  let lines := Reader.numbered 1 (Newline.bytes.lines content)
  let found := Unmatched.ofWord (lines.flatMap Line.braces)
  ⟨filename, found.extra, found.waiting.map OpenBrace.at, lines.filterMap Line.site?⟩

theorem Scan.shows_ofLines (listening : Bool) (lines : List Line) :
    (Scan.ofLines listening lines).Shows listening
      (Unmatched.ofWord (lines.flatMap Line.braces)) (lines.filterMap Line.site?) :=
  Progress.shows_start.readLines lines

/-- A scan tells its listener the closing braces without partner of the text that was
delivered, whether or not the stream breaks behind it; the report and its log entry are
there only if it does not. -/
theorem Source.scan_eq (source : Source) (filename : Bytes) (listening : Bool) :
    let report := Report.ofContent filename source.content
    let heard := if listening then report.extraClosing else []
    source.scan filename listening =
      match source.outcome with
      | some fault => ⟨heard, .error (.reading filename fault), []⟩
      | none =>
        ⟨heard, .ok report, [report.logEntry (Newline.bytes.lines source.content).length]⟩ := by
  have hshows :=
    Scan.shows_ofLines listening (Reader.numbered 1 (Newline.bytes.lines source.content))
  have hreport : (Scan.ofLines listening
      (Reader.numbered 1 (Newline.bytes.lines source.content))).report filename =
      Report.ofContent filename source.content := by
    unfold Scan.Progress.report Report.ofContent
    rw [hshows.extraClosing, hshows.pending, hshows.functions]
  have hnumber : ((Reader.numbered 1 (Newline.bytes.lines source.content)).getLastD
      ⟨0, []⟩).number = (Newline.bytes.lines source.content).length := by
    rw [Reader.number_getLastD_numbered _ ⟨0, []⟩, Nat.zero_add]
  unfold Source.scan
  rw [Reader.lines_ofSource]
  simp only [hreport, hshows.heard]
  change (match source.outcome with | some fault => _ | none => _) = _
  cases source.outcome with
  | some fault => rfl
  | none =>
    simp only [Reader.finished, hnumber]
    rfl

theorem Source.scan_result {source : Source} (h : source.outcome = none) (filename : Bytes)
    (listening : Bool) :
    (source.scan filename listening).result =
      .ok (Report.ofContent filename source.content) := by
  rw [Source.scan_eq, h]

end BraceBalance
