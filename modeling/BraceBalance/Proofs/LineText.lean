/-
  Dropping stray bytes and cutting lines, in either order.

  The reader cuts lines first and drops the stray bytes of each line.  Dropping the stray
  bytes of the whole text first may give other lines: a CR and an LF that only stray bytes
  kept apart become one terminator, and a last line of stray bytes alone vanishes.  These two
  are the only differences, and each costs exactly one line.
-/
import BraceBalance.Proofs.Delivery
import BraceBalance.Proofs.Utf8

set_option autoImplicit false

namespace BraceBalance

open Newline (bytes)

/-! ## Newlines in bytes and in characters -/

/-- The newlines of decoded text. -/
def Newline.characters : Newline Char := ⟨'\r', '\n', by decide⟩

open Newline (characters)

namespace Utf8

theorem text_cr (rest : Bytes) : text (cr :: rest) = '\r' :: text rest :=
  text_cons_ascii (by decide) rest

theorem text_lf (rest : Bytes) : text (lf :: rest) = '\n' :: text rest :=
  text_cons_ascii (by decide) rest

theorem isStart_chars (terminator : Terminator) (rest : Bytes) :
    IsStart (bytes.chars terminator ++ rest) := by
  cases terminator <;> exact isStart_cons_ascii (by decide) _

theorem text_chars_append (terminator : Terminator) (rest : Bytes) :
    text (bytes.chars terminator ++ rest) = characters.chars terminator ++ text rest := by
  cases terminator with
  | lf => exact text_lf rest
  | crlf => exact (text_cr (lf :: rest)).trans (congrArg _ (text_lf rest))
  | cr => exact text_cr rest

/-- A terminator is itself in the text, and parts it. -/
theorem text_terminated (line : Bytes) (terminator : Terminator) (rest : Bytes) :
    text (line ++ (bytes.chars terminator ++ rest)) =
      text line ++ (characters.chars terminator ++ text rest) := by
  rw [text_append line (isStart_chars terminator rest), text_chars_append]

theorem text_line (line : Bytes) : text (line ++ [lf]) = text line ++ ['\n'] := by
  rw [text_append line (isStart_cons_ascii (by decide) []), text_lf, text_nil]

theorem inner_text {line : Bytes} (hline : bytes.Inner line) :
    characters.Inner (text line) := by
  intro c hc
  constructor
  · rintro rfl
    exact (hline cr (mem_of_mem_text hc (by decide))).1 rfl
  · rintro rfl
    exact (hline lf (mem_of_mem_text hc (by decide))).2 rfl

theorem inner_of_inner_text {line : Bytes} (hline : characters.Inner (text line)) :
    bytes.Inner line := by
  intro b hb
  constructor
  · rintro rfl
    exact (hline '\r' (mem_text_of_mem (b := cr) (by decide) hb)).1 rfl
  · rintro rfl
    exact (hline '\n' (mem_text_of_mem (b := lf) (by decide) hb)).2 rfl

theorem inner_encode {line : List Char} (hline : characters.Inner line) :
    bytes.Inner (encode line) := by
  apply inner_of_inner_text
  rw [text_encode]
  exact hline

theorem encode_chars (terminator : Terminator) :
    encode (characters.chars terminator) = bytes.chars terminator := by
  cases terminator <;> rfl

theorem complete_encode {terminator : Terminator} {rest : List Char}
    (hcomplete : characters.Complete terminator rest) :
    bytes.Complete terminator (encode rest) := by
  intro hcr hhead
  obtain ⟨behind, hbehind⟩ := List.head?_eq_some_iff.mp hhead
  have hrest : rest = '\n' :: text behind := by
    rw [← text_encode rest, hbehind]
    exact text_lf behind
  exact hcomplete hcr (by rw [hrest]; rfl)

/-- The lines of an encoded text are those of the text. -/
theorem map_text_lines_encode (chars : List Char) :
    (bytes.lines (encode chars)).map text = characters.lines chars := by
  induction chars using characters.induct with
  | rest chars hchars =>
    cases chars with
    | nil => rfl
    | cons c chars =>
      have hne : encode (c :: chars) ≠ [] := by
        intro hnil
        have htext := text_encode (c :: chars)
        rw [hnil, text_nil] at htext
        cases htext
      rw [Newline.lines_inner (inner_encode hchars) hne,
        Newline.lines_inner hchars (List.cons_ne_nil c chars), List.map_singleton, text_encode]
  | line line terminator rest hline hcomplete ih =>
    rw [encode_append, encode_append, encode_chars,
      Newline.lines_terminated (inner_encode hline) (complete_encode hcomplete),
      Newline.lines_terminated hline hcomplete, List.map_cons, ih]
    exact congrArg (· :: _) ((text_line _).trans (by rw [text_encode]; rfl))

end Utf8

/-! ## What the order of dropping and cutting changes -/

namespace LineText

open Utf8 (text)

/-- An LF behind stray bytes only, and at least one of them. -/
def LfBehindStray (data : Bytes) : Prop :=
  ∃ stray behind, data = stray ++ lf :: behind ∧ stray ≠ [] ∧ text stray = []

/-- Somewhere only stray bytes, and at least one, stand between a CR and an LF. -/
def PartsCrLf (data : Bytes) : Prop :=
  ∃ front rest, data = front ++ cr :: rest ∧ LfBehindStray rest

/-- The part behind the last CR or LF; everything, if there is none. -/
def lastPart (data : Bytes) : Bytes := (data.reverse.takeWhile Cut.isInner).reverse

/-- The text ends in a part that holds bytes, but only stray ones. -/
def EndsStray (data : Bytes) : Prop := lastPart data ≠ [] ∧ text (lastPart data) = []

instance (data : Bytes) : Decidable (EndsStray data) :=
  inferInstanceAs (Decidable (_ ∧ _))

theorem inner_of_text_eq_nil {stray : Bytes} (h : text stray = []) : bytes.Inner stray := by
  apply Utf8.inner_of_inner_text
  rw [h]
  exact Newline.inner_nil

theorem lfBehindStray_iff {data : Bytes} :
    LfBehindStray data ↔
      (data.dropWhile Cut.isInner).head? = some lf ∧ data.takeWhile Cut.isInner ≠ [] ∧
        text (data.takeWhile Cut.isInner) = [] := by
  constructor
  · intro h
    obtain ⟨stray, behind, rfl, hne, htext⟩ := h
    have hall : ∀ b ∈ stray, Cut.isInner b = true :=
      fun b hb => Cut.isInner_of_mem (inner_of_text_eq_nil htext) hb
    rw [List.takeWhile_append_of_pos hall, List.dropWhile_append_of_pos hall]
    simp [hne, htext]
  · intro h
    obtain ⟨hhead, hne, htext⟩ := h
    obtain ⟨behind, hbehind⟩ := List.head?_eq_some_iff.mp hhead
    refine ⟨data.takeWhile Cut.isInner, behind, ?_, hne, htext⟩
    rw [← hbehind, List.takeWhile_append_dropWhile]

instance (data : Bytes) : Decidable (LfBehindStray data) :=
  decidable_of_iff _ lfBehindStray_iff.symm

/-- How many CRs are kept apart from an LF by stray bytes alone. -/
def partings : Bytes → Nat
  | [] => 0
  | b :: rest => if b = cr ∧ LfBehindStray rest then partings rest + 1 else partings rest

theorem partings_pos_iff {data : Bytes} : 0 < partings data ↔ PartsCrLf data := by
  induction data with
  | nil => simp [partings, PartsCrLf]
  | cons b data ih =>
    rw [partings]
    constructor
    · intro hpos
      split at hpos
      · rename_i hb
        exact ⟨[], data, by rw [hb.1]; rfl, hb.2⟩
      · obtain ⟨front, rest, rfl, hrest⟩ := ih.mp hpos
        exact ⟨b :: front, rest, rfl, hrest⟩
    · intro hparts
      obtain ⟨front, rest, hdata, hrest⟩ := hparts
      split
      · omega
      · rename_i hb
        apply ih.mpr
        cases front with
        | nil =>
          simp only [List.nil_append, List.cons.injEq] at hdata
          exact absurd ⟨hdata.1, hdata.2 ▸ hrest⟩ hb
        | cons d front =>
          simp only [List.cons_append, List.cons.injEq] at hdata
          exact ⟨front, rest, hdata.2, hrest⟩

theorem partings_inner_append {front : Bytes} (hfront : bytes.Inner front) (rest : Bytes) :
    partings (front ++ rest) = partings rest := by
  induction front with
  | nil => rfl
  | cons b front ih =>
    obtain ⟨hb, hfront⟩ := Newline.inner_cons.mp hfront
    rw [List.cons_append, partings, if_neg (fun h => hb.1 h.1), ih hfront]

theorem not_lfBehindStray_lf (rest : Bytes) : ¬ LfBehindStray (lf :: rest) := by
  rw [lfBehindStray_iff]
  simp

theorem partings_chars_append (terminator : Terminator) (rest : Bytes) :
    partings (bytes.chars terminator ++ rest) =
      partings rest + if terminator = .cr ∧ LfBehindStray rest then 1 else 0 := by
  have hne : lf ≠ cr := bytes.cr_ne_lf.symm
  cases terminator with
  | lf => simp [Newline.chars, bytes, partings, hne]
  | crlf => simp [Newline.chars, bytes, partings, hne, not_lfBehindStray_lf]
  | cr =>
    simp only [Newline.chars, bytes, List.cons_append, List.nil_append, partings, true_and]
    split <;> rfl

theorem lastPart_inner {data : Bytes} (hdata : bytes.Inner data) : lastPart data = data := by
  have hall : ∀ b ∈ data.reverse, Cut.isInner b = true :=
    fun b hb => Cut.isInner_of_mem hdata (List.mem_reverse.mp hb)
  have htake : (data.reverse ++ []).takeWhile Cut.isInner = data.reverse ++ [] :=
    List.takeWhile_append_of_pos hall
  rw [List.append_nil] at htake
  rw [lastPart, htake, List.reverse_reverse]

theorem lastPart_terminated (line : Bytes) (terminator : Terminator) (rest : Bytes) :
    lastPart (line ++ (bytes.chars terminator ++ rest)) = lastPart rest := by
  have hstop : ((bytes.chars terminator).reverse ++ line.reverse).takeWhile Cut.isInner = [] := by
    cases terminator <;> simp [Newline.chars, bytes]
  simp only [lastPart, List.reverse_append, List.append_assoc, List.takeWhile_append, hstop,
    List.append_nil]
  split
  · rename_i hlen
    rw [List.IsPrefix.eq_of_length (List.takeWhile_prefix _) hlen]
  · rfl

theorem endsStray_inner {data : Bytes} (hdata : bytes.Inner data) :
    EndsStray data ↔ data ≠ [] ∧ text data = [] := by
  rw [EndsStray, lastPart_inner hdata]

theorem endsStray_terminated (line : Bytes) (terminator : Terminator) (rest : Bytes) :
    EndsStray (line ++ (bytes.chars terminator ++ rest)) ↔ EndsStray rest := by
  rw [EndsStray, lastPart_terminated, EndsStray]

/-! ## The two orders, line by line -/

/-- Text that starts with an LF, once its stray bytes are dropped. -/
theorem head_or_lfBehindStray {rest : Bytes} (h : (text rest).head? = some '\n') :
    rest.head? = some lf ∨ LfBehindStray rest := by
  rcases bytes.inner_or_terminated rest with
    hrest | ⟨line, terminator, behind, hline, -, rfl⟩
  · have hmem : '\n' ∈ text rest := List.mem_of_head? h
    exact absurd rfl (Utf8.inner_text hrest _ hmem).2
  · rw [Utf8.text_terminated] at h
    have hempty : text line = [] := by
      cases htext : text line with
      | nil => rfl
      | cons c chars =>
        rw [htext] at h
        have hc : c = '\n' := by simpa using h
        exact absurd hc (Utf8.inner_text hline c (by rw [htext]; simp)).2
    rw [hempty, List.nil_append] at h
    have hlf : terminator = .lf := by
      cases terminator with
      | lf => rfl
      | crlf => simp [Newline.chars, characters] at h
      | cr => simp [Newline.chars, characters] at h
    subst hlf
    cases line with
    | nil => exact Or.inl rfl
    | cons b line => exact Or.inr ⟨b :: line, behind, rfl, List.cons_ne_nil b line, hempty⟩

/-- A rest without terminator is a line in both orders, unless all of it is dropped. -/
theorem lines_of_inner {data : Bytes} (hdata : bytes.Inner data) :
    (bytes.lines data).map text = (if data = [] then [] else [text data]) ∧
      characters.lines (text data) = if text data = [] then [] else [text data] := by
  constructor
  · split
    · rename_i hnil
      rw [hnil]
      rfl
    · rename_i hne
      rw [Newline.lines_inner hdata hne]
      rfl
  · split
    · rename_i hnil
      rw [hnil]
      rfl
    · rename_i hne
      exact Newline.lines_inner (Utf8.inner_text hdata) hne

theorem map_text_lines_terminated {line rest : Bytes} {terminator : Terminator}
    (hline : bytes.Inner line) (hcomplete : bytes.Complete terminator rest) :
    (bytes.lines (line ++ (bytes.chars terminator ++ rest))).map text =
      (text line ++ ['\n']) :: (bytes.lines rest).map text := by
  rw [Newline.lines_terminated hline hcomplete, List.map_cons]
  exact congrArg (· :: _) (Utf8.text_line line)

/-- A terminator that dropping leaves complete cuts the same line off. -/
theorem lines_text_kept {line rest : Bytes} {terminator : Terminator}
    (hline : bytes.Inner line) (hcomplete : bytes.Complete terminator rest)
    (hkept : ¬ (terminator = .cr ∧ LfBehindStray rest)) :
    characters.lines (text (line ++ (bytes.chars terminator ++ rest))) =
      (text line ++ ['\n']) :: characters.lines (text rest) := by
  have htext : characters.Complete terminator (text rest) := by
    intro hcr hhead
    rcases head_or_lfBehindStray hhead with hlf | hbehind
    · exact hcomplete hcr hlf
    · exact hkept ⟨hcr, hbehind⟩
  rw [Utf8.text_terminated]
  exact Newline.lines_terminated (Utf8.inner_text hline) htext

/-- A CR that dropping joins with an LF: the two lines they end become one. -/
theorem lines_text_joined {line rest : Bytes} (hline : bytes.Inner line)
    (hbehind : LfBehindStray rest) :
    ∃ more, characters.lines (text rest) = ['\n'] :: more ∧
      characters.lines (text (line ++ (bytes.chars .cr ++ rest))) =
        (text line ++ ['\n']) :: more := by
  obtain ⟨stray, behind, rfl, -, hstray⟩ := hbehind
  have hrest : text (stray ++ lf :: behind) = '\n' :: text behind := by
    rw [Utf8.text_append stray (Utf8.isStart_cons_ascii (by decide) behind), hstray,
      Utf8.text_lf]
    rfl
  have hjoined : text (line ++ (bytes.chars .cr ++ (stray ++ lf :: behind))) =
      text line ++ (characters.chars .crlf ++ text behind) := by
    rw [Utf8.text_terminated, hrest]
    rfl
  refine ⟨characters.lines (text behind), ?_, ?_⟩
  · rw [hrest]
    change characters.lines (characters.chars .lf ++ text behind) = _
    exact Newline.lines_chars_append (by simp [Newline.Complete])
  · rw [hjoined]
    exact Newline.lines_terminated (Utf8.inner_text hline) (by simp [Newline.Complete])

/-- Each parting and a stray end cost dropping first exactly one line. -/
theorem length_lines_text (data : Bytes) :
    (bytes.lines data).length =
      (characters.lines (text data)).length + partings data +
        if EndsStray data then 1 else 0 := by
  induction data using bytes.induct with
  | rest data hdata =>
    have hpartings : partings data = 0 := by
      have hnil := partings_inner_append hdata []
      rw [List.append_nil] at hnil
      rw [hnil]
      rfl
    obtain ⟨hcut, hdrop⟩ := lines_of_inner hdata
    rw [← List.length_map (f := text), hcut, hdrop, hpartings]
    simp only [endsStray_inner hdata]
    by_cases hnil : data = []
    · simp [hnil]
    · by_cases htext : text data = []
      · simp [hnil, htext]
      · simp [hnil, htext]
  | line line terminator rest hline hcomplete ih =>
    rw [partings_inner_append hline, partings_chars_append,
      Newline.lines_terminated hline hcomplete, List.length_cons, ih]
    simp only [endsStray_terminated]
    by_cases hjoin : terminator = .cr ∧ LfBehindStray rest
    · rw [if_pos hjoin]
      obtain ⟨rfl, hbehind⟩ := hjoin
      obtain ⟨more, hrest, hdata⟩ := lines_text_joined hline hbehind
      rw [hrest, hdata]
      simp only [List.length_cons]
      omega
    · rw [lines_text_kept hline hcomplete hjoin, if_neg hjoin]
      simp only [List.length_cons]
      omega

/-- Without partings and without a stray end both orders give the same lines. -/
theorem map_text_lines_of_clean {data : Bytes} (hparts : ¬ PartsCrLf data)
    (hends : ¬ EndsStray data) :
    (bytes.lines data).map text = characters.lines (text data) := by
  induction data using bytes.induct with
  | rest data hdata =>
    obtain ⟨hcut, hdrop⟩ := lines_of_inner hdata
    rw [hcut, hdrop]
    by_cases hnil : data = []
    · simp [hnil]
    · have htext : text data ≠ [] := by
        intro htext
        exact hends ((endsStray_inner hdata).mpr ⟨hnil, htext⟩)
      rw [if_neg hnil, if_neg htext]
  | line line terminator rest hline hcomplete ih =>
    have hkept : ¬ (terminator = .cr ∧ LfBehindStray rest) := by
      rintro ⟨rfl, hbehind⟩
      exact hparts ⟨line, rest, rfl, hbehind⟩
    have hrest : ¬ PartsCrLf rest := by
      intro hparts
      obtain ⟨front, behind, rfl, hbehind⟩ := hparts
      exact hparts ⟨line ++ (bytes.chars terminator ++ front), behind, by simp, hbehind⟩
    have hlast : ¬ EndsStray rest := by
      intro hstray
      exact hends ((endsStray_terminated line terminator rest).mpr hstray)
    rw [map_text_lines_terminated hline hcomplete, lines_text_kept hline hcomplete hkept,
      ih hrest hlast]

theorem map_text_numbered (first : Nat) (lines : List Bytes) :
    (Reader.numbered first lines).map Line.text = lines.map text := by
  induction lines generalizing first with
  | nil => rfl
  | cons line lines ih => rw [Reader.numbered_cons, List.map_cons, ih, List.map_cons]

/-- The texts of the lines that a stream's reader hands out. -/
theorem map_text_lines (source : Source) :
    (Reader.ofSource source).lines.1.map Line.text = (bytes.lines source.content).map text := by
  rw [Reader.lines_ofSource]
  exact map_text_numbered 1 _

/-- Reading a stream and reading another one that delivers the same bytes less the stray
ones gives the same line texts, unless stray bytes alone keep a CR and an LF apart or make up
the part behind the last terminator.  Each of these accounts for exactly one line more. -/
theorem lines_of_cleaned_stream (source cleaned : Source)
    (hcleaned : cleaned.content = Utf8.valid source.content) :
    let texts := (Reader.ofSource source).lines.1.map Line.text
    let cleanedTexts := (Reader.ofSource cleaned).lines.1.map Line.text
    (texts = cleanedTexts ↔ ¬ PartsCrLf source.content ∧ ¬ EndsStray source.content) ∧
      texts.length = cleanedTexts.length + partings source.content +
        if EndsStray source.content then 1 else 0 := by
  intro texts cleanedTexts
  have htexts : texts = (bytes.lines source.content).map text := map_text_lines source
  have hcleanedTexts : cleanedTexts = characters.lines (text source.content) := by
    rw [← Utf8.map_text_lines_encode, ← Utf8.valid, ← hcleaned]
    exact map_text_lines cleaned
  have hlength : texts.length = cleanedTexts.length + partings source.content +
      if EndsStray source.content then 1 else 0 := by
    rw [htexts, hcleanedTexts, List.length_map, length_lines_text]
  refine ⟨⟨?_, ?_⟩, hlength⟩
  · intro heq
    rw [heq] at hlength
    constructor
    · intro hparts
      have hpos := partings_pos_iff.mpr hparts
      omega
    · intro hends
      rw [if_pos hends] at hlength
      omega
  · intro hclean
    obtain ⟨hparts, hends⟩ := hclean
    rw [htexts, hcleanedTexts, map_text_lines_of_clean hparts hends]

/-- A stray byte between CR and LF, and one at the end: four lines are left as two. -/
theorem lines_of_cleaned_stream_apart :
    let source := Source.ofReads [[0x61, cr], [0xFF, lf, 0x62, lf], [0xC3]] none
    let cleaned := Source.ofContent [0x61, cr, lf, 0x62, lf]
    cleaned.content = Utf8.valid source.content ∧
      (Reader.ofSource source).lines.1.map Line.text ≠
        (Reader.ofSource cleaned).lines.1.map Line.text ∧
      ((Reader.ofSource source).lines.1.map Line.text).length =
        ((Reader.ofSource cleaned).lines.1.map Line.text).length + 1 + 1 := by
  intro source cleaned
  have hcleaned : cleaned.content = Utf8.valid source.content := by decide +kernel
  have hends : EndsStray source.content := by decide +kernel
  have hpartings : partings source.content = 1 := by decide +kernel
  obtain ⟨hsame, hlength⟩ := lines_of_cleaned_stream source cleaned hcleaned
  rw [hpartings, if_pos hends] at hlength
  refine ⟨hcleaned, ?_, hlength⟩
  intro heq
  exact (hsame.mp heq).2 hends

end LineText

end BraceBalance
