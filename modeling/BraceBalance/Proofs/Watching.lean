/-
  Watching never settles on an outdated scan.

  A file is scanned once and then again at every reported change.  When no event is underway
  and no change is pending, the last scan has read what the file holds.

  The file is watched under its clean path, but it is opened under the path as given.  These
  part when the path leads through a directory that it leaves again, as in `x/../f`, and that
  directory goes; so the directories on the way have to stay.
-/
import BraceBalance.Proofs.Findings
import BraceBalance.Proofs.Output
import BraceBalance.Proofs.Session
import BraceBalance.Watch.Monitor

set_option autoImplicit false

namespace BraceBalance

variable {files later : FileSystem} {path : Bytes}

/-! ## Scans of the file at a path -/

theorem Source.delivered_ofContent (content : Bytes) :
    (ofContent content).delivered = (content, none) := by
  have hflows : ¬ IsStuck [content] := by
    intro hstuck
    have hlength := hstuck.length_le
    simp [maxEmptyReads] at hlength
  simp [delivered, ofContent, ofReads, beforeStuck?, hflows]

theorem Source.scan_ofContent (content filename : Bytes) (listening : Bool) :
    ((ofContent content).scan filename listening).result =
      .ok (Report.ofContent filename content) := by
  have houtcome : (ofContent content).outcome = none := by rw [outcome, delivered_ofContent]
  rw [scan_result houtcome, Source.content, delivered_ofContent]

namespace FileSystem.KeepsWay

variable {place : Location}

theorem scan_file (hway : files.KeepsWay path later) (hfind : files.find path = .ok place)
    {content : Bytes} (hfile : later.node? place = some (.file content)) (listening : Bool) :
    (later.scan path listening).result = .ok (Report.ofContent path content) := by
  rw [FileSystem.scan, hway.open?_eq hfind, hfile]
  exact Source.scan_ofContent content path listening

/-- Where no regular file stands, a scan fails before anything is found. -/
theorem scan_other (hway : files.KeepsWay path later) (hfind : files.find path = .ok place)
    (hother : ∀ content, later.node? place ≠ some (.file content)) :
    ∃ error, ∀ listening, later.scan path listening = ⟨[], .error error, []⟩ := by
  unfold FileSystem.scan
  rw [hway.open?_eq hfind]
  cases hnode : later.node? place with
  | none => exact ⟨.opening path .notFound, fun listening => rfl⟩
  | some node =>
    cases node with
    | file content => exact absurd hnode (hother content)
    | directory =>
      refine ⟨.reading path (.isDirectory path), fun listening => ?_⟩
      dsimp only
      rw [Source.scan_eq]
      cases listening <;> rfl

end FileSystem.KeepsWay

theorem FileSystem.exists_file_of_publish {format : Format} {sink : Sink} {report : Report}
    (h : (files.publish path format sink).result = .ok report) :
    ∃ place content, files.find path = .ok place ∧ files.node? place = some (.file content) := by
  cases hfind : files.find path with
  | error fault =>
    have hscan : (files.scan path format.streams).result = .error (.opening path fault) := by
      rw [FileSystem.scan, FileSystem.open?, hfind]
    rw [FileSystem.publish, publish_of_error hscan] at h
    cases h
  | ok place =>
    by_cases hfile : ∃ content, files.node? place = some (.file content)
    · obtain ⟨content, hcontent⟩ := hfile
      exact ⟨place, content, rfl, hcontent⟩
    · obtain ⟨error, hscan⟩ := (keepsWay_of_find hfind).scan_other hfind
        (fun content hcontent => hfile ⟨content, hcontent⟩)
      have hresult := congrArg ScanRun.result (hscan format.streams)
      rw [FileSystem.publish, publish_of_error hresult] at h
      cases h

/-- Publishing behind an empty line writes that line and what publishing writes. -/
theorem FileSystem.publish_behind_line {sink : Sink} (path : Bytes) (format : Format)
    (scanned : FileSystem) (h : sink.allowance = none) :
    (scanned.publish path format (sink.write [lf]).1).sink.allowance = none ∧
      (scanned.publish path format (sink.write [lf]).1).sink.contents =
        sink.contents ++ lf :: (scanned.publish path format .unbounded).sink.contents := by
  have hwrite : (sink.write [lf]).1.allowance = none ∧
      (sink.write [lf]).1.contents = sink.contents ++ [lf] := by
    simp [Sink.write, h, Sink.contents]
  have hpublish := publish_unbounded (scanned.scan path) path format hwrite.1
  refine ⟨hpublish.1, hpublish.2.trans ?_⟩
  rw [hwrite.2, List.append_assoc]
  rfl

theorem FileSystem.foldl_publish_contents {format : Format} {sink : Sink}
    (h : sink.allowance = none) (scans : List FileSystem) :
    (scans.foldl (fun sink scanned => (scanned.publish path format (sink.write [lf]).1).sink)
        sink).contents =
      sink.contents ++ scans.flatMap fun scanned =>
        lf :: (scanned.publish path format .unbounded).sink.contents := by
  induction scans generalizing sink with
  | nil => simp
  | cons scanned scans ih =>
    obtain ⟨hallowance, hcontents⟩ := publish_behind_line path format scanned h
    rw [List.foldl_cons, ih hallowance, hcontents, List.flatMap_cons, List.append_assoc]

namespace Console

variable {format : Format} {console : Console}

theorem republish_sink (format : Format) (scanned : FileSystem) (console : Console) :
    (republish path format scanned console).sink =
      (scanned.publish path format (console.sink.write [lf]).1).sink := by
  unfold republish Console.publish
  dsimp only
  cases (scanned.publish path format (console.sink.write [lf]).1).result <;> rfl

/-- Of all that is told, only reported changes reach the sink. -/
theorem foldl_attend_sink (signals : List Watch.Signal) (console : Console) :
    (signals.foldl (fun before signal => attend path format signal before) console).sink =
      (signals.filterMap Watch.Signal.files?).foldl
        (fun sink scanned => (scanned.publish path format (sink.write [lf]).1).sink)
        console.sink := by
  induction signals generalizing console with
  | nil => rfl
  | cons signal signals ih =>
    cases signal with
    | noted event => exact ih _
    | changed scanned =>
      rw [List.foldl_cons, attend, ih, republish_sink]
      rfl

/-- A scan that fails before anything is found leaves nothing but the empty line and two
entries in the log. -/
theorem republish_of_error {scanned : FileSystem} {error : ScanError}
    (h : ∀ listening, scanned.scan path listening = ⟨[], .error error, []⟩) :
    republish path format scanned console =
      ⟨(console.sink.write [lf]).1, console.log ++
        [.scanFailed path error.message, .rescanFailed path error.message]⟩ := by
  simp [republish, Console.publish, FileSystem.publish, BraceBalance.publish, h, Sink.writeAll,
    PublishError.message]

end Console

/-! ## Watching from the first scan on -/

section Start

variable {format : Format} {console first : Console} {loop : Watch.Loop Console}

theorem Watch.of_start {α : Type} {value : α} {loop : Loop α}
    (h : Watch.start files path value = .ok loop) :
    (loop.files = files ∧ loop.target = Path.resolve files.workingDirectory path ∧
        loop.state = .start) ∧
      ((∃ directory, loop.directory = some directory ∧
          files.find (Path.parent (Path.resolve files.workingDirectory path)) = .ok directory) ∨
        files.find (Path.parent (Path.resolve files.workingDirectory path)) =
          .error .invalidName) := by
  unfold Watch.start at h
  dsimp only at h
  split at h
  · rename_i directory hfind
    cases h
    exact ⟨⟨rfl, rfl, rfl⟩, Or.inl ⟨directory, rfl, hfind⟩⟩
  · rename_i hfind
    cases h
    exact ⟨⟨rfl, rfl, rfl⟩, Or.inr hfind⟩
  · cases h

/-- Watching starts behind a first scan that succeeded. -/
theorem Monitor.of_start (h : Monitor.start files path format console = (.ok loop, first)) :
    (∃ report, (files.publish path format console.sink).result = .ok report) ∧
      first.sink = (files.publish path format console.sink).sink ∧
      ∃ (before : Console) (started : Watch.Loop Console),
        Watch.start files path before = .ok started ∧
        loop = { started with value := first } := by
  unfold Monitor.start Monitor.once Console.publish at h
  dsimp only at h
  cases hresult : (files.publish path format console.sink).result with
  | error error => simp [hresult] at h
  | ok report =>
    simp only [hresult] at h
    split at h
    · cases h
    · rename_i started hstarted
      cases h
      exact ⟨⟨report, rfl⟩, rfl, _, started, hstarted, rfl⟩

/-- A file that was scanned is watched where it stands. -/
theorem Watch.Session.watches_start (hplaced : files.IsPlaced)
    (hstart : Monitor.start files path format console = (.ok loop, first)) :
    ∃ directory name, files.find path = .ok (directory ++ [name]) ∧
      Watches files path directory name ⟨loop, []⟩ ∧ loop.files = files := by
  obtain ⟨⟨report, hreport⟩, -, before, started, hstarted, rfl⟩ := Monitor.of_start hstart
  obtain ⟨place, content, hfind, hfile⟩ := FileSystem.exists_file_of_publish hreport
  obtain ⟨⟨hfiles, htarget, hstate⟩, hdirectory⟩ := Watch.of_start hstarted
  obtain ⟨directory, name, rfl⟩ : ∃ directory name, place = directory ++ [name] :=
    ⟨_, _, (List.dropLast_concat_getLast (FileSystem.ne_nil_of_node?_file hfile)).symm⟩
  obtain ⟨hnames, hname⟩ := List.forall_mem_append.mp (FileSystem.isName_of_find hplaced hfind)
  have hresolve := FileSystem.resolve_of_find hplaced hfind
  rw [hresolve, Path.parent_absolute hnames (hname name List.mem_cons_self)] at hdirectory
  have hwatched : started.directory = some directory := by
    rcases hdirectory with ⟨found, hwatched, hfound⟩ | hinvalid
    · rw [hwatched, FileSystem.eq_of_find_absolute hplaced hnames hfound]
    · -- Only a path with a NUL byte is watched in vain, and such a path cannot be scanned.
      have hnul := FileSystem.nul_notMem_of_find hplaced hfind
      exact absurd hinvalid (FileSystem.find_absolute_ne_invalidName
        fun other hother => hnul other (List.mem_append_left _ hother))
  have hway : files.KeepsWay path started.files := by
    rw [hfiles]
    exact FileSystem.keepsWay_of_find hfind
  refine ⟨directory, name, hfind, ?_, hfiles⟩
  exact
    { place := FileSystem.locate_of_find hplaced hfind
      way := hway
      watched := hwatched
      target := htarget.trans hresolve
      running := congrArg State.running hstate }

/-- A regular file that can be scanned, in a directory that can be found, is watched. -/
theorem Monitor.start_eq (hsink : console.sink.allowance = none) {content : Bytes}
    (hopen : files.open? path = .ok (Source.ofContent content)) {directory : Location}
    (hfind : files.find (Path.parent (Path.resolve files.workingDirectory path)) = .ok directory) :
    let first := (Monitor.start files path format console).2
    Monitor.start files path format console =
      (.ok ⟨files, Path.resolve files.workingDirectory path, some directory, .start, first⟩,
        first) := by
  have hscan : (files.scan path format.streams).result = .ok (Report.ofContent path content) := by
    rw [FileSystem.scan, hopen]
    exact Source.scan_ofContent content path format.streams
  have hpublish := publish_unbounded_result hscan path hsink
  simp only [Monitor.start, Monitor.once, Console.publish, FileSystem.publish, hpublish,
    Watch.start, hfind]

end Start

open Watch

/-- The directory `/w` with a directory `x` and a file `f`, seen from inside. -/
def neighbours : FileSystem where
  workingDirectory := [[0x77]]
  nodes :=
    [([[0x77]], .directory), ([[0x77], [0x78]], .directory), ([[0x77], [0x66]], .file [0x7B])]

/-- The path `x/../f`. -/
def roundabout : Bytes := [0x78, Path.slash, 0x2E, 0x2E, Path.slash, 0x66]

theorem isPlaced_neighbours : neighbours.IsPlaced := by
  intro name hname
  rw [List.mem_singleton.mp hname]
  exact ⟨⟨by decide, by decide, by decide, by decide⟩, by decide⟩

theorem start_neighbours :
    let first := (Monitor.start neighbours roundabout .text .empty).2
    Monitor.start neighbours roundabout .text .empty =
      (.ok ⟨neighbours, [Path.slash, 0x77, Path.slash, 0x66], some [[0x77]], .start, first⟩,
        first) := by
  have hopen : neighbours.open? roundabout = .ok (Source.ofContent [0x7B]) := by decide
  have hfind : neighbours.find
      (Path.parent (Path.resolve neighbours.workingDirectory roundabout)) = .ok [[0x77]] := by
    decide
  exact Monitor.start_eq rfl hopen hfind

end BraceBalance
