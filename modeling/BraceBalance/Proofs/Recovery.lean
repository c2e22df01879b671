/-
  Findings recovered from the text that reports them.

  The text output is read phrase by phrase: fixed wording, and words that end at a byte which
  they cannot hold.  No heading is needed to find the end of a list, because each total is
  written in front of its list and tells how many entries follow.  Every phrase gives back
  what was written, whatever follows it (`Recovers`), and so the whole output gives back the
  findings that it shows: two reports with the same output show the same findings.
-/
import BraceBalance.Proofs.Declaration
import BraceBalance.Proofs.Findings
import BraceBalance.Proofs.Output
import BraceBalance.Proofs.Utf8

set_option autoImplicit false

namespace BraceBalance

/-! ## Numbers read back -/

namespace Decimal

/-- The number that digits stand for. -/
def readNat (digits : Bytes) : Nat := digits.foldl (fun n b => 10 * n + (b.toNat - 0x30)) 0

/-- The number that digits, with or without a minus sign, stand for. -/
def readInt : Bytes → Int
  | [] => 0
  | b :: rest => if b = 0x2D then -(readNat rest) else readNat (b :: rest)

theorem isDigit_of_mem_ofNat {n : Nat} {b : UInt8} (hb : b ∈ ofNat n) : 0x30 ≤ b ∧ b ≤ 0x39 := by
  have hdigit : ∀ d < 10, 0x30 ≤ digit d ∧ digit d ≤ 0x39 := by decide
  induction n using Nat.strongRecOn with
  | _ n ih =>
    rw [ofNat] at hb
    split at hb
    · rename_i hsmall
      rw [List.mem_singleton.mp hb]
      exact hdigit n hsmall
    · rename_i hlarge
      rcases List.mem_append.mp hb with hfront | hlast
      · exact ih (n / 10) (by omega) hfront
      · rw [List.mem_singleton.mp hlast]
        exact hdigit (n % 10) (by omega)

/-- Only digits and a minus sign stand in a number. -/
theorem notMem_ofInt {b : UInt8} (hminus : b ≠ 0x2D) (hdigit : ¬ (0x30 ≤ b ∧ b ≤ 0x39)) (n : Int) :
    b ∉ ofInt n := by
  intro hb
  unfold ofInt at hb
  split at hb
  · rcases List.mem_cons.mp hb with hsign | hb
    · exact hminus hsign
    · exact hdigit (isDigit_of_mem_ofNat hb)
  · exact hdigit (isDigit_of_mem_ofNat hb)

theorem readNat_ofNat (n : Nat) : readNat (ofNat n) = n := by
  have hdigit : ∀ d < 10, (digit d).toNat - 0x30 = d := by decide
  induction n using Nat.strongRecOn with
  | _ n ih =>
    rw [ofNat]
    split
    · rename_i hsmall
      simp [readNat, hdigit n hsmall]
    · rename_i hlarge
      have hfront : readNat (ofNat (n / 10)) = n / 10 := ih (n / 10) (by omega)
      unfold readNat at hfront ⊢
      rw [List.foldl_append, hfront, List.foldl_cons, List.foldl_nil, hdigit _ (by omega)]
      omega

theorem ofNat_ne_nil (n : Nat) : ofNat n ≠ [] := by
  rw [ofNat]
  split <;> simp

theorem readInt_ofInt (n : Int) : readInt (ofInt n) = n := by
  unfold ofInt
  split
  · rename_i hneg
    rw [readInt, if_pos rfl, readNat_ofNat]
    omega
  · rename_i hneg
    cases hdigits : ofNat n.natAbs with
    | nil => exact absurd hdigits (ofNat_ne_nil _)
    | cons b rest =>
      have hb : 0x30 ≤ b ∧ b ≤ 0x39 := isDigit_of_mem_ofNat (hdigits ▸ List.mem_cons_self)
      have hminus : b ≠ 0x2D := by
        rintro rfl
        exact absurd hb.1 (by decide)
      rw [readInt, if_neg hminus, ← hdigits, readNat_ofNat]
      omega

end Decimal

/-! ## Phrases -/

/-- A reader of phrases: it takes a phrase off the front of a text and tells what it says. -/
abbrev Recovery (α : Type) := StateT Bytes Option α

namespace Recovery

variable {α β : Type}

/-- Fixed wording. -/
def wording (expected : Bytes) : Recovery Unit := fun bytes =>
  (expected.isPrefixOf? bytes).map ((), ·)

/-- A word, with the byte behind it that ends it. -/
def word (stop : UInt8) : Recovery Bytes := fun bytes =>
  match bytes.dropWhile (· != stop) with
  | [] => none
  | _ :: rest => some (bytes.takeWhile (· != stop), rest)

/-- A number, with the byte behind it that ends it. -/
def number (stop : UInt8) : Recovery Int := do
  let digits ← word stop
  return Decimal.readInt digits

/-- The same phrase a number of times. -/
def times (phrase : Recovery α) : Nat → Recovery (List α)
  | 0 => pure []
  | n + 1 => do
    let first ← phrase
    let rest ← times phrase n
    return first :: rest

/-- The same phrase as often as it stands there. -/
def all (phrase : Recovery α) (bytes : Bytes) : List α × Bytes :=
  match phrase bytes with
  | none => ([], bytes)
  | some (first, rest) =>
    if rest.length < bytes.length then
      let (more, behind) := all phrase rest
      (first :: more, behind)
    else ([], bytes)
termination_by bytes.length

/-- Bytes that say something in the words of a phrase, whatever follows them. -/
def Recovers (phrase : Recovery α) (bytes : Bytes) (meaning : α) : Prop :=
  ∀ rest, phrase (bytes ++ rest) = some (meaning, rest)

theorem recovers_pure (meaning : α) : Recovers (pure meaning) [] meaning := by
  intro rest
  rfl

theorem Recovers.bind {phrase : Recovery α} {next : α → Recovery β} {front bytes : Bytes}
    {first : α} {meaning : β} (hfront : Recovers phrase front first)
    (hnext : Recovers (next first) bytes meaning) :
    Recovers (phrase >>= next) (front ++ bytes) meaning := by
  intro rest
  change (phrase (front ++ bytes ++ rest)).bind (fun found => next found.1 found.2) = _
  rw [List.append_assoc, hfront]
  exact hnext rest

theorem Recovers.bind_pure {phrase : Recovery α} {bytes : Bytes} {meaning : α}
    (h : Recovers phrase bytes meaning) (f : α → β) :
    Recovers (phrase >>= fun found => pure (f found)) bytes (f meaning) := by
  have hbind : Recovers (phrase >>= fun found => pure (f found)) (bytes ++ []) (f meaning) :=
    h.bind (recovers_pure (f meaning))
  rwa [List.append_nil] at hbind

theorem recovers_wording (expected : Bytes) : Recovers (wording expected) expected () := by
  intro rest
  have hprefix : expected.isPrefixOf? (expected ++ rest) = some rest :=
    List.isPrefixOf?_eq_some_iff_append_eq.mpr rfl
  rw [wording, hprefix]
  rfl

theorem recovers_word {stop : UInt8} {bytes : Bytes} (h : stop ∉ bytes) :
    Recovers (word stop) (bytes ++ [stop]) bytes := by
  intro rest
  obtain ⟨htake, hdrop⟩ := takeWhile_ne_stop h rest
  rw [List.append_assoc, List.singleton_append, word, hdrop, htake]

theorem recovers_number (stop : UInt8) (hminus : stop ≠ 0x2D)
    (hdigit : ¬ (0x30 ≤ stop ∧ stop ≤ 0x39)) (n : Int) :
    Recovers (number stop) (Decimal.ofInt n ++ [stop]) n := by
  have hnumber :=
    (recovers_word (Decimal.notMem_ofInt hminus hdigit n)).bind_pure Decimal.readInt
  rwa [Decimal.readInt_ofInt] at hnumber

theorem recovers_times {phrase : Recovery α} {write : β → Bytes} {meaning : β → α}
    {entries : List β} (h : ∀ entry ∈ entries, Recovers phrase (write entry) (meaning entry)) :
    Recovers (times phrase entries.length) (entries.map write).flatten (entries.map meaning) := by
  induction entries with
  | nil => exact recovers_pure []
  | cons entry entries ih =>
    have hfirst := h entry List.mem_cons_self
    have hrest := ih (fun other hother => h other (List.mem_cons_of_mem entry hother))
    exact hfirst.bind (hrest.bind_pure (meaning entry :: ·))

/-- A phrase is taken as often as it was written, if what follows cannot be taken for one
more. -/
theorem all_append {phrase : Recovery α} {write : α → Bytes} (hwrite : ∀ entry, write entry ≠ [])
    (h : ∀ entry, Recovers phrase (write entry) entry) {rest : Bytes} (hrest : phrase rest = none)
    (entries : List α) : all phrase ((entries.map write).flatten ++ rest) = (entries, rest) := by
  induction entries with
  | nil =>
    rw [all, List.map_nil, List.flatten_nil, List.nil_append, hrest]
  | cons entry entries ih =>
    have hlength := List.length_pos_iff.mpr (hwrite entry)
    rw [List.map_cons, List.flatten_cons, List.append_assoc, all, h entry]
    have hshorter : ((entries.map write).flatten ++ rest).length <
        (write entry ++ ((entries.map write).flatten ++ rest)).length := by
      simp only [List.length_append]
      omega
    simp only [if_pos hshorter, ih]

end Recovery

/-! ## What the text output shows -/

/-- What the text output shows of a report: all of the extra closing braces, and the totals
and last entries of the unclosed braces and the functions. -/
structure Shown where
  extraClosing : List Position
  unclosedTotal : Nat
  unclosed : List Position
  functionTotal : Nat
  functions : List FunctionSite
  deriving DecidableEq, Repr

/-- What the text output shows of a report. -/
def Report.shown (report : Report) : Shown where
  extraClosing := report.extraClosing
  unclosedTotal := report.unclosed.length
  unclosed := (report.unclosedTail maxListed).map OpenBrace.position
  functionTotal := report.functions.length
  functions := report.functionTail maxListed

namespace Recovery

/-- A position as a line of the output gives it. -/
def positionLine (beforeLine beforeColumn : Bytes) : Recovery Position := do
  wording beforeLine
  let line ← number 0x2C
  wording beforeColumn
  let column ← number 0x0A
  return ⟨line, column⟩

/-- The line on an extra closing brace. -/
def extraClosingLine : Recovery Position :=
  positionLine (Bytes.ofString "Extra closing brace at line ") (Bytes.ofString " pos ")

/-- The line on an unclosed brace. -/
def unclosedLine : Recovery Position :=
  positionLine (Bytes.ofString "  Line ") (Bytes.ofString " position ")

/-- The line on a function. -/
def functionLine : Recovery FunctionSite := do
  wording (Bytes.ofString "  ")
  let name ← word 0x20
  wording (Bytes.ofString "at line ")
  let line ← number 0x0A
  return ⟨name, line⟩

/-- A total, and the entries that are listed under a heading if there are any. -/
def listing {α : Type} (label : String) (heading : Bytes) (entry : Recovery α) :
    Recovery (Nat × List α) := do
  wording (Bytes.ofString label ++ Bytes.ofString ": ")
  let total ← number 0x0A
  if total.toNat = 0 then return (0, [])
  else
    wording (heading ++ [0x0A])
    let entries ← times entry (min Report.maxListed.toNat total.toNat)
    return (total.toNat, entries)

/-- The summary, behind extra closing braces that were read before it. -/
def summary (extraClosing : List Position) : Recovery Shown := do
  let unclosed ← listing "Unclosed braces" (Bytes.ofString "Unclosed braces found at:") unclosedLine
  let functions ← listing "Functions found"
    (Bytes.ofString "Last " ++ Decimal.ofInt Report.maxListed ++ Bytes.ofString " functions:")
    functionLine
  return ⟨extraClosing, unclosed.1, unclosed.2, functions.1, functions.2⟩

end Recovery

/-- The findings that a text output shows; nothing if the text is no such output. -/
def Shown.read? (output : Bytes) : Option Shown :=
  let (extraClosing, rest) := Recovery.all Recovery.extraClosingLine output
  match Recovery.summary extraClosing rest with
  | some (shown, []) => some shown
  | _ => none

namespace Recovery

/-! ## Every part of the output reads back -/

theorem recovers_positionLine (beforeLine beforeColumn : Bytes) (position : Position) :
    Recovers (positionLine beforeLine beforeColumn)
      (beforeLine ++ ((Decimal.ofInt position.line ++ [0x2C]) ++
        (beforeColumn ++ (Decimal.ofInt position.column ++ [0x0A])))) position := by
  have hline := recovers_number 0x2C (by decide) (by decide) position.line
  have hcolumn := recovers_number 0x0A (by decide) (by decide) position.column
  refine (recovers_wording beforeLine).bind (hline.bind ?_)
  refine (recovers_wording beforeColumn).bind ?_
  exact hcolumn.bind_pure (Position.mk position.line)

theorem recovers_extraClosingLine (position : Position) :
    Recovers extraClosingLine (Report.extraClosingLine position) position := by
  have hpos : Bytes.ofString ", pos " = [0x2C] ++ Bytes.ofString " pos " := by decide
  have hline := recovers_positionLine (Bytes.ofString "Extra closing brace at line ")
    (Bytes.ofString " pos ") position
  rw [extraClosingLine, Report.extraClosingLine, Report.extraClosingText, hpos]
  simpa only [List.append_assoc] using hline

theorem recovers_unclosedLine (brace : OpenBrace) :
    Recovers unclosedLine (Report.unclosedLine brace) brace.position := by
  have hpos : Bytes.ofString ", position " = [0x2C] ++ Bytes.ofString " position " := by decide
  have hline := recovers_positionLine (Bytes.ofString "  Line ")
    (Bytes.ofString " position ") brace.position
  rw [unclosedLine, Report.unclosedLine, hpos]
  simpa only [List.append_assoc] using hline

theorem recovers_functionLine {site : FunctionSite} (hname : 0x20 ∉ site.name) :
    Recovers functionLine (Report.functionLine site) site := by
  have hat : Bytes.ofString " at line " = [0x20] ++ Bytes.ofString "at line " := by decide
  have hbytes : Report.functionLine site = Bytes.ofString "  " ++ ((site.name ++ [0x20]) ++
      (Bytes.ofString "at line " ++ (Decimal.ofInt site.line ++ [0x0A]))) := by
    rw [Report.functionLine, hat]
    simp only [List.append_assoc]
  have hline := recovers_number 0x0A (by decide) (by decide) site.line
  rw [hbytes]
  refine (recovers_wording _).bind ((recovers_word hname).bind ?_)
  refine (recovers_wording _).bind ?_
  exact hline.bind_pure (FunctionSite.mk site.name)

/-- A total with its list reads back, whatever is written for an entry. -/
theorem recovers_listing {α β : Type} {phrase : Recovery α} {write : β → Bytes} {meaning : β → α}
    (label : String) (heading : Bytes) {entries : List β}
    (h : ∀ entry ∈ entries, Recovers phrase (write entry) (meaning entry)) :
    let listed := Report.lastOf Report.maxListed entries
    Recovers (listing label heading phrase)
      (Report.totalLine label entries.length ++ Report.listing heading (listed.map write))
      (entries.length, listed.map meaning) := by
  intro listed
  have htotal : Report.totalLine label entries.length =
      (Bytes.ofString label ++ Bytes.ofString ": ") ++
        (Decimal.ofInt entries.length ++ [0x0A]) := by
    simp [Report.totalLine, Decimal.ofInt]
  have hlisted : ∀ entry ∈ listed, Recovers phrase (write entry) (meaning entry) :=
    fun entry hentry => h entry ((Report.lastOf_suffix _ entries).subset hentry)
  have hlength : listed.length = min Report.maxListed.toNat entries.length :=
    Report.length_lastOf _ entries
  rw [htotal, List.append_assoc]
  refine (recovers_wording _).bind ?_
  refine (recovers_number 0x0A (by decide) (by decide) entries.length).bind ?_
  rw [Int.toNat_natCast]
  by_cases hnone : entries.length = 0
  · have hnil : listed = [] := List.length_eq_zero_iff.mp (by omega)
    rw [if_pos hnone, hnone, hnil]
    exact recovers_pure _
  · have hsome : (listed.map write).isEmpty = false := by
      have hmax : Report.maxListed.toNat = 10 := rfl
      simp only [List.isEmpty_eq_false_iff, ne_eq, List.map_eq_nil_iff]
      intro hnil
      rw [hnil, List.length_nil] at hlength
      omega
    rw [if_neg hnone, Report.listing, hsome, ← hlength]
    refine (recovers_wording _).bind ?_
    exact (recovers_times hlisted).bind_pure (Prod.mk entries.length)

theorem recovers_summary {report : Report} (hnames : ∀ site ∈ report.functions, 0x20 ∉ site.name) :
    Recovers (summary report.extraClosing) report.summary report.shown := by
  have hunclosed : ∀ brace ∈ report.unclosed,
      Recovers unclosedLine (Report.unclosedLine brace) brace.position :=
    fun brace _ => recovers_unclosedLine brace
  have hfunctions : ∀ site ∈ report.functions,
      Recovers functionLine (Report.functionLine site) (id site) :=
    fun site hsite => recovers_functionLine (hnames site hsite)
  have hshown : report.shown = ⟨report.extraClosing, report.unclosed.length,
      (report.unclosedTail Report.maxListed).map OpenBrace.position, report.functions.length,
      (report.functionTail Report.maxListed).map id⟩ := by
    rw [List.map_id, Report.shown]
  rw [hshown, Report.summary, List.append_assoc _ _ (Report.listing _ _)]
  refine (recovers_listing _ _ hunclosed).bind ?_
  exact (recovers_listing _ _ hfunctions).bind_pure fun functions =>
    Shown.mk report.extraClosing report.unclosed.length
      ((report.unclosedTail Report.maxListed).map OpenBrace.position) functions.1 functions.2

/-- No summary can be taken for the line on an extra closing brace. -/
theorem extraClosingLine_summary (report : Report) : extraClosingLine report.summary = none := by
  rfl

end Recovery

/-- The text output of a report reads back as what it shows. -/
theorem Shown.read?_output {report : Report}
    (hnames : ∀ site ∈ report.functions, 0x20 ∉ site.name) :
    Shown.read? ((report.extraClosing.map Report.extraClosingLine).flatten ++ report.summary) =
      some report.shown := by
  have hne : ∀ position, Report.extraClosingLine position ≠ [] := by
    intro position
    simp [Report.extraClosingLine]
  have hall := Recovery.all_append hne Recovery.recovers_extraClosingLine
    (Recovery.extraClosingLine_summary report) report.extraClosing
  have hsummary := Recovery.recovers_summary hnames []
  rw [List.append_nil] at hsummary
  simp only [Shown.read?, hall, hsummary]

/-! ## Scans and their output -/

/-- A scan that streams the findings of a report: it tells its listener the extra closing
braces of the report, whose functions have runs of word characters for names. -/
structure Streams (scan : Bool → ScanRun) (report : Report) : Prop where
  result : (scan true).result = .ok report
  heard : (scan true).heard = report.extraClosing
  named : ∀ site ∈ report.functions, ∃ name, IsRun Unicode.isWord name ∧
    site.name = Utf8.encode name

theorem Streams.space_notMem {scan : Bool → ScanRun} {report : Report} (h : Streams scan report) :
    ∀ site ∈ report.functions, 0x20 ∉ site.name := by
  intro site hsite hspace
  obtain ⟨name, hname, hsiteName⟩ := h.named site hsite
  have hchar := Utf8.mem_text_of_mem (by decide) (hsiteName ▸ hspace)
  rw [Utf8.text_encode] at hchar
  exact absurd (hname.passes _ hchar) (by decide +kernel)

/-- Every clean scan of a stream streams the findings it reports. -/
theorem Source.streams {source : Source} (h : source.outcome = none) (filename : Bytes) :
    Streams (source.scan filename) (Report.ofContent filename source.content) where
  result := Source.scan_result h filename true
  heard := by
    rw [Source.scan_eq, h]
    rfl
  named := by
    intro site hsite
    obtain ⟨line, -, hline⟩ := List.mem_filterMap.mp hsite
    obtain ⟨name, hname, rfl⟩ := Option.map_eq_some_iff.mp hline
    exact ⟨name, Declaration.isRun_of_detect? hname, rfl⟩

/-- What a scan writes in text format to a sink that takes everything. -/
def textOutput (scan : Bool → ScanRun) (name : Bytes) : Bytes :=
  (publish scan name .text .unbounded).sink.contents

theorem Streams.textOutput_eq {scan : Bool → ScanRun} {report : Report} (h : Streams scan report)
    (name : Bytes) :
    textOutput scan name =
      (report.extraClosing.map Report.extraClosingLine).flatten ++ report.summary := by
  have hresult : (scan Format.text.streams).result = .ok report := h.result
  have hheard : (scan Format.text.streams).heard = report.extraClosing := h.heard
  rw [textOutput, publish_of_ok hresult, hheard]
  simp [Sink.unbounded, Sink.empty, Sink.writeAll_unbounded, Sink.contents, Format.closing]

/-- The complete text output determines the findings that it shows, whichever scan it comes
from: it reads back as all extra closing braces, the numbers of unclosed braces and functions,
and the last ten of each.  Every clean scan of a stream is one to which this applies. -/
theorem text_output_determines_findings (left right : Bool → ScanRun) (first second : Report)
    (name other : Bytes) (hleft : Streams left first) (hright : Streams right second) :
    Shown.read? (textOutput left name) = some first.shown ∧
      (textOutput left name = textOutput right other →
        first.extraClosing = second.extraClosing ∧
        first.unclosed.length = second.unclosed.length ∧
        first.functions.length = second.functions.length ∧
        (first.unclosedTail 10).map OpenBrace.position =
          (second.unclosedTail 10).map OpenBrace.position ∧
        first.functionTail 10 = second.functionTail 10) ∧
      ∀ (source : Source) (filename : Bytes), source.outcome = none →
        ∃ report, Streams (source.scan filename) report := by
  have hread : ∀ {scan : Bool → ScanRun} {report : Report} (name : Bytes), Streams scan report →
      Shown.read? (textOutput scan name) = some report.shown := by
    intro scan report name h
    rw [h.textOutput_eq]
    exact Shown.read?_output h.space_notMem
  refine ⟨hread name hleft, ?_, fun source filename hend => ⟨_, Source.streams hend filename⟩⟩
  intro houtput
  have hshown : first.shown = second.shown := by
    have hfirst := hread name hleft
    rw [houtput, hread other hright, Option.some.injEq] at hfirst
    exact hfirst.symm
  obtain ⟨hextra, hunclosedTotal, hunclosed, hfunctionTotal, hfunctions⟩ := Shown.mk.inj hshown
  exact ⟨hextra, hunclosedTotal, hfunctionTotal, hunclosed, hfunctions⟩

/-- Of eleven unclosed braces the first is not shown: it stands at another column in each of
two texts, whose outputs are the same. -/
theorem text_output_determines_findings_capped :
    let left := (Source.ofContent (0x7B :: lf :: List.replicate 10 0x7B)).scan []
    let right := (Source.ofContent (0x20 :: 0x7B :: lf :: List.replicate 10 0x7B)).scan []
    ∃ first second, Streams left first ∧ Streams right second ∧
      textOutput left [] = textOutput right [] ∧ first.unclosed ≠ second.unclosed ∧
      first.unclosed.length = second.unclosed.length ∧
      (first.unclosedTail 10).map OpenBrace.position =
        (second.unclosedTail 10).map OpenBrace.position := by
  intro left right
  have hleft : Streams left _ := Source.streams (by decide +kernel) []
  have hright : Streams right _ := Source.streams (by decide +kernel) []
  have houtput : textOutput left [] = textOutput right [] := by
    rw [hleft.textOutput_eq, hright.textOutput_eq]
    decide +kernel
  obtain ⟨-, hdetermines, -⟩ :=
    text_output_determines_findings left right _ _ [] [] hleft hright
  obtain ⟨-, htotal, -, htail, -⟩ := hdetermines houtput
  exact ⟨_, _, hleft, hright, houtput, by decide +kernel, htotal, htail⟩

end BraceBalance
