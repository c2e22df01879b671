/-
  The findings of a scan, told by counting bytes.

  Lines, columns and the stack of open braces are means; which braces a scan reports can be
  said about the bytes alone.  A closing brace is reported if closing braces outnumber the
  opening ones on every stretch of bytes that ends with it, an opening brace if opening braces
  outnumber the closing ones on every stretch that starts with it.
-/
import BraceBalance.Proofs.Location

set_option autoImplicit false

namespace BraceBalance

open Unmatched (ofWord opens closes)

/-! ## Stretches of bytes -/

/-- The bytes from one offset to another, both included. -/
def stretch (content : Bytes) (first last : Nat) : Bytes := (content.take (last + 1)).drop first

/-- A closing brace without partner: on every stretch that ends with it, closing braces
outnumber opening ones. -/
def Unopened (content : Bytes) (offset : Nat) : Prop :=
  content[offset]? = some closeByte ∧
    ∀ first ≤ offset, (stretch content first offset).count openByte <
      (stretch content first offset).count closeByte

/-- An opening brace without partner: on every stretch that starts with it, opening braces
outnumber closing ones. -/
def Unclosed (content : Bytes) (offset : Nat) : Prop :=
  content[offset]? = some openByte ∧
    ∀ last < content.length, offset ≤ last →
      (stretch content offset last).count closeByte <
        (stretch content offset last).count openByte

instance (content : Bytes) (offset : Nat) : Decidable (Unopened content offset) :=
  inferInstanceAs (Decidable (_ ∧ _))

instance (content : Bytes) (offset : Nat) : Decidable (Unclosed content offset) :=
  inferInstanceAs (Decidable (_ ∧ _))

/-! ## Counting braces is counting bytes -/

/-- The braces of a byte string, each at its offset behind `start`. -/
def bracesFrom (start : Nat) (content : Bytes) : List (Brace × Nat) :=
  placed Brace.ofByte? id start content

theorem bracesFrom_concat (front : Bytes) (b : UInt8) :
    bracesFrom 0 (front ++ [b]) =
      bracesFrom 0 front ++ ((Brace.ofByte? b).map (·, front.length)).toList := by
  rw [bracesFrom, placed_append, placed_cons, placed_nil, List.append_nil, Nat.zero_add]
  rfl

theorem bracesFrom_cons (start : Nat) (b : UInt8) (content : Bytes) :
    bracesFrom start (b :: content) =
      ((Brace.ofByte? b).map (·, start)).toList ++ bracesFrom (start + 1) content :=
  placed_cons id start b content

theorem bracesFrom_take_drop (start cut : Nat) (content : Bytes) :
    bracesFrom start (content.take cut) ++
        bracesFrom (start + (content.take cut).length) (content.drop cut) =
      bracesFrom start content := by
  rw [bracesFrom, bracesFrom, ← placed_append, List.take_append_drop]
  rfl

/-- Cutting the braces of a byte string in two cuts the bytes in two. -/
theorem exists_of_append_eq_bracesFrom {start : Nat} {content : Bytes}
    {left right : List (Brace × Nat)} (h : left ++ right = bracesFrom start content) :
    ∃ front back, content = front ++ back ∧ left = bracesFrom start front ∧
      right = bracesFrom (start + front.length) back := by
  obtain ⟨entries, entries', hentries, hleft, hright⟩ := List.filterMap_eq_append_iff.mp h.symm
  obtain ⟨front, back, hcontent, rfl, rfl⟩ := List.zipIdx_eq_append_iff.mp hentries
  exact ⟨front, back, hcontent, hleft.symm, hright.symm⟩

theorem closeByte_ne_openByte : closeByte ≠ openByte := by decide

/-- The byte of a brace. -/
def Brace.byte : Brace → UInt8
  | .opening => openByte
  | .closing => closeByte

theorem Brace.ofByte?_eq_some_iff {b : UInt8} {brace : Brace} :
    ofByte? b = some brace ↔ b = brace.byte := by
  unfold ofByte?
  by_cases hopen : b = openByte
  · cases brace <;> simp [hopen, byte, closeByte_ne_openByte.symm]
  · by_cases hclose : b = closeByte
    · cases brace <;> simp [hclose, byte, closeByte_ne_openByte]
    · cases brace <;> simp [hopen, hclose, byte]

theorem countP_bracesFrom (brace : Brace) (start : Nat) (content : Bytes) :
    (bracesFrom start content).countP (fun entry => entry.1 = brace) =
      content.count brace.byte := by
  induction content generalizing start with
  | nil => rfl
  | cons b content ih =>
    rw [bracesFrom_cons, List.countP_append, ih, List.count_cons, Nat.add_comm]
    cases hfound : Brace.ofByte? b with
    | none =>
      have hb : b ≠ brace.byte := by
        intro hb
        rw [Brace.ofByte?_eq_some_iff.mpr hb] at hfound
        cases hfound
      simp [hb]
    | some found =>
      have hb : b = brace.byte ↔ found = brace := by
        rw [← Brace.ofByte?_eq_some_iff, hfound, Option.some_inj]
      simp [hb]

theorem opens_bracesFrom (start : Nat) (content : Bytes) :
    opens (bracesFrom start content) = content.count openByte :=
  countP_bracesFrom .opening start content

theorem closes_bracesFrom (start : Nat) (content : Bytes) :
    closes (bracesFrom start content) = content.count closeByte :=
  countP_bracesFrom .closing start content

theorem waiting_eq_nil_iff_drop {start : Nat} {content : Bytes} :
    (ofWord (bracesFrom start content)).waiting = [] ↔
      ∀ first, (content.drop first).count openByte ≤ (content.drop first).count closeByte := by
  rw [Unmatched.waiting_eq_nil_iff]
  constructor
  · intro h first
    have hback := h _ ⟨_, bracesFrom_take_drop start first content⟩
    rwa [opens_bracesFrom, closes_bracesFrom] at hback
  · intro h back hback
    obtain ⟨left, hword⟩ := hback
    obtain ⟨front, rest, rfl, -, rfl⟩ := exists_of_append_eq_bracesFrom hword
    have hrest := h front.length
    rw [List.drop_left] at hrest
    rw [opens_bracesFrom, closes_bracesFrom]
    exact hrest

theorem extra_eq_nil_iff_take {start : Nat} {content : Bytes} :
    (ofWord (bracesFrom start content)).extra = [] ↔
      ∀ last, (content.take last).count closeByte ≤ (content.take last).count openByte := by
  rw [Unmatched.extra_eq_nil_iff]
  constructor
  · intro h last
    have hfront := h _ ⟨_, bracesFrom_take_drop start last content⟩
    rwa [opens_bracesFrom, closes_bracesFrom] at hfront
  · intro h front hfront
    obtain ⟨right, hword⟩ := hfront
    obtain ⟨bytes, rest, rfl, rfl, -⟩ := exists_of_append_eq_bracesFrom hword
    have hbytes := h bytes.length
    rw [List.take_left] at hbytes
    rw [opens_bracesFrom, closes_bracesFrom]
    exact hbytes

/-! ## The unmatched offsets -/

/-- A closing brace is unopened if nothing waits in front of it. -/
theorem unopened_iff {content : Bytes} {offset : Nat} :
    Unopened content offset ↔ content[offset]? = some closeByte ∧
      (ofWord (bracesFrom 0 (content.take offset))).waiting = [] := by
  unfold Unopened
  rw [waiting_eq_nil_iff_drop]
  apply and_congr_right
  intro hbyte
  obtain ⟨hlen, -⟩ := List.getElem?_eq_some_iff.mp hbyte
  have hstretch : ∀ first ≤ offset,
      stretch content first offset = (content.take offset).drop first ++ [closeByte] := by
    intro first hfirst
    have hshort : first ≤ (content.take offset).length := by
      rw [List.length_take]
      omega
    rw [stretch, List.take_add_one, hbyte, Option.toList_some,
      List.drop_append_of_le_length hshort]
  have hopens : ∀ front : Bytes,
      (front ++ [closeByte]).count openByte = front.count openByte := by
    intro front
    simp [List.count_append, closeByte_ne_openByte]
  have hcloses : ∀ front : Bytes,
      (front ++ [closeByte]).count closeByte = front.count closeByte + 1 := by
    intro front
    simp [List.count_append]
  constructor
  · intro h first
    rcases Nat.lt_or_ge offset first with hbehind | hfirst
    · rw [List.drop_eq_nil_of_le (by rw [List.length_take]; omega)]
      exact Nat.le_refl 0
    · have hcount := h first hfirst
      rw [hstretch first hfirst, hopens, hcloses] at hcount
      exact Nat.le_of_lt_succ hcount
  · intro h first hfirst
    rw [hstretch first hfirst, hopens, hcloses]
    exact Nat.lt_succ_of_le (h first)

/-- An opening brace is unclosed if what comes behind it closes nothing in front of itself. -/
theorem unclosed_iff {content : Bytes} {offset : Nat} (start : Nat) :
    Unclosed content offset ↔ content[offset]? = some openByte ∧
      (ofWord (bracesFrom start (content.drop (offset + 1)))).extra = [] := by
  unfold Unclosed
  rw [extra_eq_nil_iff_take]
  apply and_congr_right
  intro hbyte
  obtain ⟨hlen, hget⟩ := List.getElem?_eq_some_iff.mp hbyte
  have hstretch : ∀ behind,
      stretch content offset (offset + behind) =
        openByte :: (content.drop (offset + 1)).take behind := by
    intro behind
    rw [stretch, Nat.add_assoc, List.drop_take, Nat.add_sub_cancel_left,
      List.drop_eq_getElem_cons hlen, hget, List.take_succ_cons]
  have hcloses : ∀ back : Bytes, (openByte :: back).count closeByte = back.count closeByte :=
    fun back => List.count_cons_of_ne closeByte_ne_openByte.symm
  constructor
  · intro h behind
    -- A stretch cannot reach past the end, so the longest one stands for those that would.
    have htake : (content.drop (offset + 1)).take behind =
        (content.drop (offset + 1)).take (min behind (content.length - (offset + 1))) := by
      rw [List.take_eq_take_min, List.length_drop]
    have hcount := h (offset + min behind (content.length - (offset + 1))) (by omega)
      (Nat.le_add_right _ _)
    rw [hstretch, ← htake, hcloses, List.count_cons_self] at hcount
    exact Nat.le_of_lt_succ hcount
  · intro h last _ hlast
    obtain ⟨behind, rfl⟩ := Nat.exists_eq_add_of_le hlast
    rw [hstretch, hcloses, List.count_cons_self]
    exact Nat.lt_succ_of_le (h behind)

/-- What is left unopened in front of an offset, byte by byte. -/
theorem extra_ofWord_take (content : Bytes) {count : Nat} (hcount : count ≤ content.length) :
    (ofWord (bracesFrom 0 (content.take count))).extra =
      (List.range count).filter (Unopened content) := by
  induction count with
  | zero => rfl
  | succ offset ih =>
    have hlen : (content.take offset).length = offset := by
      rw [List.length_take]
      omega
    have hunopened : Unopened content offset ↔ Brace.ofByte? content[offset] = some .closing ∧
        (ofWord (bracesFrom 0 (content.take offset))).waiting = [] := by
      rw [unopened_iff, List.getElem?_eq_getElem hcount, Option.some_inj,
        Brace.ofByte?_eq_some_iff]
      rfl
    rw [List.take_succ_eq_append_getElem hcount, bracesFrom_concat, hlen, List.range_succ,
      List.filter_append, ← ih (Nat.le_of_succ_le hcount)]
    cases hbrace : Brace.ofByte? content[offset] with
    | none => simp [hunopened, hbrace]
    | some brace =>
      rw [Option.map_some, Option.toList_some, Unmatched.ofWord_concat]
      cases brace with
      | opening => simp [hunopened, hbrace]
      | closing =>
        by_cases hwaiting : (ofWord (bracesFrom 0 (content.take offset))).waiting = []
        · rw [Unmatched.step_closing_extra hwaiting]
          simp [hunopened, hbrace, hwaiting]
        · rw [Unmatched.step_closing_pair hwaiting]
          simp [hunopened, hbrace, hwaiting]

theorem filter_unclosed_cons (b : UInt8) (content : Bytes) :
    (List.range (b :: content).length).filter (Unclosed (b :: content)) =
      (if Unclosed (b :: content) 0 then [0] else []) ++
        ((List.range content.length).filter (Unclosed content)).map (1 + ·) := by
  have hbehind : ∀ offset, Unclosed (b :: content) (1 + offset) ↔ Unclosed content offset := by
    intro offset
    rw [Nat.add_comm, unclosed_iff 0, unclosed_iff 0]
    rfl
  rw [List.length_cons, Nat.add_comm, List.range_add, List.filter_append, List.filter_map]
  simp only [Function.comp_def, hbehind, List.range_one, List.filter_cons, List.filter_nil,
    decide_eq_true_eq]

/-- What is left unclosed, byte by byte from the end. -/
theorem waiting_ofWord (start : Nat) (content : Bytes) :
    (ofWord (bracesFrom start content)).waiting =
      ((List.range content.length).filter (Unclosed content)).map (start + ·) := by
  induction content generalizing start with
  | nil => rfl
  | cons b content ih =>
    have hunclosed : Unclosed (b :: content) 0 ↔ Brace.ofByte? b = some .opening ∧
        (ofWord (bracesFrom (start + 1) content)).extra = [] := by
      rw [unclosed_iff (start + 1), List.getElem?_cons_zero, Option.some_inj,
        Brace.ofByte?_eq_some_iff]
      rfl
    have hrest : ((List.range content.length).filter (Unclosed content)).map
          ((start + ·) ∘ (1 + ·)) = (ofWord (bracesFrom (start + 1) content)).waiting := by
      rw [ih]
      simp only [Function.comp_def, Nat.add_assoc]
    rw [filter_unclosed_cons, List.map_append, List.map_map, hrest, bracesFrom_cons]
    cases hbrace : Brace.ofByte? b with
    | none => simp [hunclosed, hbrace]
    | some brace =>
      rw [Option.map_some, Option.toList_some, List.singleton_append]
      cases brace with
      | opening =>
        rw [Unmatched.ofWord_opening_cons]
        by_cases hextra : (ofWord (bracesFrom (start + 1) content)).extra = []
        · simp [hunclosed, hbrace, hextra]
        · simp [hunclosed, hbrace, hextra]
      | closing =>
        rw [Unmatched.ofWord_closing_cons]
        simp [hunclosed, hbrace]

/-! ## The findings of a scan -/

/-- The report of a text tells exactly the braces without partner, in the order of their
offsets and each at the position of its offset. -/
theorem Report.ofContent_braces (filename content : Bytes) :
    let report := Report.ofContent filename content
    let offsets := List.range content.length
    report.extraClosing = (offsets.filter (Unopened content)).map (positionAt content) ∧
      report.unclosed = (offsets.filter (Unclosed content)).map
        fun offset => OpenBrace.at (positionAt content offset) := by
  have hword : (Reader.numbered 1 (Newline.bytes.lines content)).flatMap Line.braces =
      (bracesFrom 0 content).map fun brace => (brace.1, positionAt content brace.2) := by
    rw [flatMap_braces_lines, bracesFrom, map_placed]
    rfl
  have hextra := extra_ofWord_take content (Nat.le_refl _)
  rw [List.take_length] at hextra
  have hwaiting := waiting_ofWord 0 content
  simp only [Nat.zero_add, List.map_id'] at hwaiting
  intro report offsets
  simp only [report, Report.ofContent, hword, ← Unmatched.map_ofWord, Unmatched.map, hextra,
    hwaiting, List.map_map]
  exact ⟨rfl, rfl⟩

/-- A scan that reads its source to the end returns a report.  Its extra closing braces are
exactly the unopened ones of the content and its unclosed braces exactly the unclosed ones,
in the order of their offsets and each at the line and column of its offset, whatever
terminators, stray bytes and longer characters stand around them. -/
theorem scan_reports_unmatched_braces (source : Source) (filename : Bytes) (listening : Bool)
    (h : source.outcome = none) :
    ∃ report, (source.scan filename listening).result = .ok report ∧
      report.extraClosing = ((List.range source.content.length).filter
        (Unopened source.content)).map (positionAt source.content) ∧
      report.unclosed = ((List.range source.content.length).filter
        (Unclosed source.content)).map
          fun offset => ⟨positionAt source.content offset, Bytes.ofString "open"⟩ :=
  ⟨Report.ofContent filename source.content, Source.scan_result h filename listening,
    Report.ofContent_braces filename source.content⟩

/-- A lone CR ends a line, the lead byte in front of the second brace is dropped, and the
two bytes of `é` are one column. -/
theorem scan_reports_unmatched_braces_mixed :
    let source := Source.ofContent
      [0x7D, 0x0D, 0xC3, 0x7B, 0x0A, 0xC3, 0xA9, 0x7B, 0x7D, 0xFF, 0x7B]
    source.outcome = none ∧
      ∃ report, (source.scan [] true).result = .ok report ∧
        report.extraClosing = [⟨1, 0⟩] ∧
        report.unclosed = [⟨⟨2, 0⟩, Bytes.ofString "open"⟩, ⟨⟨3, 3⟩, Bytes.ofString "open"⟩] := by
  intro source
  have houtcome : source.outcome = none := by decide
  obtain ⟨report, hresult, hextra, hunclosed⟩ :=
    scan_reports_unmatched_braces source [] true houtcome
  refine ⟨houtcome, report, hresult, ?_, ?_⟩
  · rw [hextra]
    decide +kernel
  · rw [hunclosed]
    decide +kernel

end BraceBalance
