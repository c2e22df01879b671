/-
  Written documents read back.

  Every part of a document is the UTF-8 encoding of a text that the grammar reads as what was
  written (`Spells`), whatever follows it.  Scalars come first, then the members and lists
  that the layout builds from written parts, one line an item.  Since the grammar is
  unambiguous, a written report has its findings as its only meaning.
-/
import BraceBalance.Proofs.Json.Grammar
import BraceBalance.Proofs.Utf8
import BraceBalance.Report.Json
import Mathlib.Tactic.SplitIfs

set_option autoImplicit false

namespace BraceBalance.Json

/-- Bytes that spell a phrase: they encode a text that the grammar reads as the phrase and as
nothing more, whatever follows. -/
def Spells (phrase : Phrase) (bytes : Bytes) (meaning : phrase.Meaning) : Prop :=
  ∃ text, bytes = Utf8.encode text ∧ ∀ rest, Derives phrase (text ++ rest) meaning rest

/-! ## What documents mean -/

/-- What a scalar means. -/
def Scalar.tree : Scalar → Tree
  | .int n => .number n 0
  | .text bytes => .string (Utf8.replacing bytes)

/-- What a record means. -/
def Record.tree (record : Record) : Tree :=
  .object (record.map fun field => (field.1.toList, field.2.tree))

/-- What the value of a field means. -/
def Value.tree : Value → Tree
  | .scalar s => s.tree
  | .records entries => .array (entries.map Record.tree)

/-- What a document means. -/
def Document.tree (document : Document) : Tree :=
  .object (document.map fun field => (field.1.toList, field.2.tree))

/-! ## Numbers -/

theorem encode_toDigits (n : Nat) : Decimal.ofNat n = Utf8.encode (Nat.toDigits 10 n) := by
  have hdigit : ∀ d < 10, [Decimal.digit d] = Utf8.encode [Nat.digitChar d] := by decide
  induction n using Nat.strongRecOn with
  | _ n ih =>
    rw [Decimal.ofNat, Nat.toDigits_eq_if (by decide)]
    split
    · rename_i hsmall
      exact hdigit n hsmall
    · rename_i hlarge
      rw [Utf8.encode_append, ← ih (n / 10) (by omega), hdigit (n % 10) (by omega)]

/-- No number but zero starts with a zero. -/
theorem head?_toDigits {n : Nat} (h : (Nat.toDigits 10 n).head? = some '0') : n = 0 := by
  induction n using Nat.strongRecOn with
  | _ n ih =>
    rw [Nat.toDigits_eq_if (by decide)] at h
    split at h
    · simpa using h
    · rename_i hlarge
      have hfront : (Nat.toDigits 10 (n / 10)).head? = some '0' := by
        rwa [List.head?_append, Option.or_of_isSome ?_] at h
        exact List.isSome_head?.mpr Nat.toDigits_ne_nil
      have hzero := ih (n / 10) (by omega) hfront
      omega

theorem whole_toDigits (n : Nat) (rest : List Char) :
    Whole (Nat.toDigits 10 n ++ rest) (Nat.toDigits 10 n) rest := by
  by_cases hzero : n = 0
  · subst hzero
    exact .zero
  · have hrun : IsRun Char.isDigit (Nat.toDigits 10 n) :=
      ⟨Nat.toDigits_ne_nil, fun c hc => Nat.isDigit_of_mem_toDigits (by decide) (by decide) hc⟩
    have hfirst := mt (head?_toDigits (n := n)) hzero
    cases hdigits : Nat.toDigits 10 n with
    | nil => exact absurd hdigits Nat.toDigits_ne_nil
    | cons first digits =>
      rw [hdigits] at hrun hfirst
      refine .digits ?_ hrun
      rintro rfl
      exact hfirst rfl

theorem unsigned_toDigits (n : Nat) (rest : List Char) :
    Unsigned (Nat.toDigits 10 n ++ rest) n 0 rest := by
  have hunsigned := Unsigned.mk (whole_toDigits n rest) .absent .absent
  rwa [List.append_nil, decimal, Nat.ofDigitChars_ten_toDigits] at hunsigned

theorem spells_ofInt (n : Int) : Spells (.one .value) (Decimal.ofInt n) (Tree.number n 0) := by
  rw [Decimal.ofInt]
  split
  · rename_i hneg
    refine ⟨'-' :: Nat.toDigits 10 n.natAbs, by rw [encode_toDigits]; rfl, fun rest => ?_⟩
    have hnumber := Number.minus (unsigned_toDigits n.natAbs rest)
    rw [show -(n.natAbs : Int) = n by omega] at hnumber
    exact .number hnumber
  · rename_i hneg
    refine ⟨Nat.toDigits 10 n.natAbs, encode_toDigits _, fun rest => ?_⟩
    have hnumber := Number.plain (unsigned_toDigits n.natAbs rest)
    rw [show (n.natAbs : Int) = n by omega] at hnumber
    exact .number hnumber

/-! ## Strings -/

theorem codeUnit_ofNat {n : Nat} (hn : n < 0x10000) (rest : List Char) :
    CodeUnit ('\\' :: 'u' :: Hex.ofNat 4 n ++ rest) n rest := by
  have hdigit : ∀ d < 16, hexDigit? (Hex.digit d) = some d := by decide
  have hvalue : ((n / 16 / 16 / 16 % 16 * 16 + n / 16 / 16 % 16) * 16 + n / 16 % 16) * 16 +
      n % 16 = n := by omega
  have hunit : CodeUnit ('\\' :: 'u' :: Hex.ofNat 4 n ++ rest) _ rest :=
    .mk (hdigit _ (by omega)) (hdigit _ (by omega)) (hdigit _ (by omega)) (hdigit _ (by omega))
  rwa [hvalue] at hunit

/-- A character reads back from the form in which a string holds it. -/
theorem Chars.escaped (c : Char) {text chars rest : List Char} (h : Chars text chars rest) :
    Chars (escaped c ++ text) (c :: chars) rest := by
  unfold Json.escaped
  split_ifs with hquote hslash hb hf hn hr ht hunit
  · subst hquote
    exact .short rfl h
  · subst hslash
    exact .short rfl h
  · subst hb
    exact .short rfl h
  · subst hf
    exact .short rfl h
  · subst hn
    exact .short rfl h
  · subst hr
    exact .short rfl h
  · subst ht
    exact .short rfl h
  · have hsmall : c.toNat < 0xD800 := by
      simp only [Bool.or_eq_true, decide_eq_true_eq] at hunit
      rcases hunit with ((((hcontrol | rfl) | rfl) | rfl) | rfl) | rfl
      · omega
      all_goals decide
    have hchars := Chars.unit (codeUnit_ofNat (n := c.toNat) (by omega) text) (by omega) h
    rwa [Char.ofNat_toNat] at hchars
  · simp only [Bool.or_eq_true, decide_eq_true_eq, not_or] at hunit
    exact .plain hquote hslash (by omega) h

theorem chars_flatMap_escaped (chars rest : List Char) :
    Chars (chars.flatMap escaped ++ '"' :: rest) chars rest := by
  induction chars with
  | nil => exact .close
  | cons c chars ih =>
    rw [List.flatMap_cons, List.append_assoc]
    exact ih.escaped c

theorem spells_string (bytes : Bytes) :
    Spells (.one .value) (string bytes) (Tree.string (Utf8.replacing bytes)) := by
  refine ⟨_, rfl, fun rest => ?_⟩
  rw [List.cons_append, List.append_assoc]
  exact .string (chars_flatMap_escaped (Utf8.replacing bytes) rest)

theorem Scalar.spells (scalar : Scalar) : Spells (.one .value) scalar.render scalar.tree := by
  cases scalar with
  | int n => exact spells_ofInt n
  | text bytes => exact spells_string bytes

/-! ## Lines of items -/

/-- A new line at a depth of nesting. -/
def margin (depth : Nat) : List Char := '\n' :: List.replicate (2 * depth) ' '

theorem encode_margin (depth : Nat) : Utf8.encode (margin depth) = 0x0A :: indent depth := by
  have hspaces : ∀ n, Utf8.encode (List.replicate n ' ') = List.replicate n 0x20 := by
    intro n
    induction n with
    | zero => rfl
    | succ n ih =>
      rw [List.replicate_succ, List.replicate_succ, ← ih]
      rfl
  rw [indent, ← hspaces]
  rfl

theorem blanks_margin (depth : Nat) (rest : List Char) : Blanks (margin depth ++ rest) rest := by
  refine ⟨margin depth, rfl, List.forall_mem_cons.mpr ⟨rfl, ?_⟩⟩
  intro c hc
  rw [List.eq_of_mem_replicate hc]
  rfl

/-- A member is spelled by its key and its value. -/
theorem Spells.member {bytes : Bytes} {tree : Tree} (h : Spells (.one .value) bytes tree)
    (key : String) :
    Spells (.one .member) (string (Bytes.ofString key) ++ [0x3A, 0x20] ++ bytes)
      (key.toList, tree) := by
  obtain ⟨text, rfl, htext⟩ := h
  refine ⟨('"' :: (key.toList.flatMap escaped ++ ['"'])) ++ [':', ' '] ++ text, ?_, ?_⟩
  · rw [string, Bytes.ofString, Utf8.replacing_encode, Utf8.encode_append, Utf8.encode_append]
    rfl
  · intro rest
    have hcolon : Blanks (' ' :: (text ++ rest)) (text ++ rest) := (Blanks.refl _).cons rfl
    have hmember := Derives.member (chars_flatMap_escaped key.toList _) (.refl _) hcolon
      (htext rest)
    simpa using hmember

section Items

variable {α : Type} (item : Item) {render : α → Bytes} {meaning : α → item.Meaning}

/-- Items that are spelled one by one spell a list when each stands on a line of its own. -/
theorem spells_list (hitem : ∀ entry, Spells (.one item) (render entry) (meaning entry))
    (depth : Nat) (entry : α) (entries : List α) :
    Spells (.list item)
      (0x0A :: (List.intercalate [0x2C, 0x0A]
        (((entry :: entries).map render).map (indent (depth + 1) ++ ·)) ++
          0x0A :: indent depth ++ Utf8.encode [item.closing]))
      ((entry :: entries).map meaning) := by
  -- the newline in front belongs to the statement: it stands behind the bracket and behind
  -- every comma
  induction entries generalizing entry with
  | nil =>
    obtain ⟨text, htext, hderives⟩ := hitem entry
    refine ⟨margin (depth + 1) ++ text ++ (margin depth ++ [item.closing]), ?_, fun rest => ?_⟩
    · simp [Utf8.encode_append, encode_margin, htext]
    · have hlast := Derives.last (blanks_margin (depth + 1) _) (hderives _)
        (blanks_margin depth (item.closing :: rest))
      simpa using hlast
  | cons next entries ih =>
    obtain ⟨text, htext, hderives⟩ := hitem entry
    obtain ⟨behind, hbehind, hlist⟩ := ih next
    refine ⟨margin (depth + 1) ++ text ++ ',' :: behind, ?_, fun rest => ?_⟩
    · rw [Utf8.encode_append, Utf8.encode_append, encode_margin, ← htext]
      change _ = _ ++ 0x2C :: Utf8.encode behind
      rw [← hbehind]
      simp [List.intercalate_cons_cons]
    · have hmore := Derives.more (blanks_margin (depth + 1) _) (hderives _)
        (.refl (',' :: (behind ++ rest))) (hlist rest)
      simpa using hmore

end Items

theorem spells_array {α : Type} {render : α → Bytes} {meaning : α → Tree}
    (hitem : ∀ entry, Spells (.one .value) (render entry) (meaning entry)) (depth : Nat)
    (entries : List α) :
    Spells (.one .value) (array depth (entries.map render)) (Tree.array (entries.map meaning)) := by
  cases entries with
  | nil => exact ⟨['[', ']'], rfl, fun rest => .emptyArray (.refl _)⟩
  | cons entry entries =>
    obtain ⟨text, htext, hlist⟩ := spells_list .value hitem depth entry entries
    refine ⟨'[' :: text, ?_, fun rest => .array (hlist rest)⟩
    change _ = 0x5B :: Utf8.encode text
    rw [← htext]
    rfl

theorem spells_object {α : Type} {key : α → String} {render : α → Bytes} {meaning : α → Tree}
    (hvalue : ∀ field, Spells (.one .value) (render field) (meaning field)) (depth : Nat)
    (fields : List α) :
    Spells (.one .value) (object depth (fields.map fun field => (key field, render field)))
      (Tree.object (fields.map fun field => ((key field).toList, meaning field))) := by
  rw [object, List.map_map]
  cases fields with
  | nil =>
    -- no fields: the two newlines that are left are blanks between the braces
    refine ⟨'{' :: '\n' :: (margin depth ++ ['}']), ?_, fun rest => ?_⟩
    · change _ = 0x7B :: 0x0A :: Utf8.encode (margin depth ++ ['}'])
      rw [Utf8.encode_append, encode_margin]
      rfl
    · have hclosing := (blanks_margin depth ('}' :: rest)).cons (c := '\n') rfl
      have hempty := Derives.emptyObject hclosing
      simpa using hempty
  | cons field fields =>
    have hmember := fun field => (hvalue field).member (key field)
    obtain ⟨text, htext, hlist⟩ := spells_list .member hmember depth field fields
    refine ⟨'{' :: text, ?_, fun rest => .object (hlist rest)⟩
    change _ = 0x7B :: Utf8.encode text
    rw [← htext]
    rfl

/-! ## Documents -/

theorem Record.spells (depth : Nat) (record : Record) :
    Spells (.one .value) (record.render depth) record.tree :=
  spells_object (fun field => field.2.spells) depth record

theorem Value.spells (value : Value) : Spells (.one .value) value.render value.tree := by
  cases value with
  | scalar s => exact s.spells
  | records entries => exact spells_array (Record.spells 2) 1 entries

theorem getLast?_block (opening closing : UInt8) (depth : Nat) (items : List Bytes) :
    (block opening closing depth items).getLast? = some closing := by
  unfold block
  simp only [← List.cons_append]
  exact List.getLast?_concat

/-- A written document is the encoding of a text that ends with one newline and has one
meaning. -/
theorem Document.denotes (document : Document) :
    ∃ text, document.render = Utf8.encode (text ++ ['\n']) ∧ text.getLast? ≠ some '\n' ∧
      ∀ tree, Denotes (text ++ ['\n']) tree ↔ tree = document.tree := by
  obtain ⟨text, htext, hderives⟩ :=
    spells_object (fun field : String × Value => field.2.spells) 0 document
  have hdenotes : Denotes (text ++ ['\n']) document.tree :=
    ⟨text ++ ['\n'], ['\n'], .refl _, hderives ['\n'], (Blanks.refl []).cons rfl⟩
  refine ⟨text, by rw [Document.render, htext, Utf8.encode_append]; rfl, ?_, fun tree => ?_⟩
  · -- the last byte of the text is that of a brace
    intro hnewline
    obtain ⟨front, rfl⟩ := List.getLast?_eq_some_iff.mp hnewline
    have hbrace : (Utf8.encode (front ++ ['\n'])).getLast? = some 0x7D := by
      rw [← htext]
      exact getLast?_block 0x7B 0x7D 0 _
    have hlf : (Utf8.encode (front ++ ['\n'])).getLast? = some 0x0A := by
      rw [Utf8.encode_append]
      exact List.getLast?_concat
    exact absurd (hbrace.symm.trans hlf) (by decide)
  · constructor
    · intro htree
      exact denotes_unique htree hdenotes
    · rintro rfl
      exact hdenotes

end BraceBalance.Json

namespace BraceBalance

/-- A written report reads back as its findings.  Its bytes encode a text that ends with one
newline, and the grammar gives that text one meaning: an object with the name of the file,
all extra closing braces, and of the unclosed braces and the functions the count and the last
ten.  Strings read back with U+FFFD for each stray byte, and so as they are if they are
well-formed. -/
theorem Report.json_reads_back (report : Report) :
    let string := fun bytes => Json.Tree.string (Utf8.replacing bytes)
    let number := fun n : Int => Json.Tree.number n 0
    let position := fun position : Position =>
      [("line".toList, number position.line), ("column".toList, number position.column)]
    (∃ text, report.json = Utf8.encode (text ++ ['\n']) ∧ text.getLast? ≠ some '\n' ∧
      ∀ tree, Json.Denotes (text ++ ['\n']) tree ↔ tree = .object
        [("filename".toList, string report.filename),
          ("extra_closing".toList,
            .array (report.extraClosing.map fun extra => .object (position extra))),
          ("unclosed_count".toList, number report.unclosed.length),
          ("unclosed".toList,
            .array ((report.unclosed.drop (report.unclosed.length - 10)).map fun brace =>
              .object (position brace.position ++ [("kind".toList, string brace.kind)]))),
          ("function_count".toList, number report.functions.length),
          ("functions".toList,
            .array ((report.functions.drop (report.functions.length - 10)).map fun site =>
              .object [("name".toList, string site.name), ("line".toList, number site.line)]))]) ∧
    (∀ bytes chars, Utf8.Replaced bytes chars ↔ chars = Utf8.replacing bytes) ∧
    (∀ chars, Utf8.replacing (Utf8.encode chars) = chars) := by
  intro string number position
  refine ⟨?_, fun bytes chars => Utf8.replaced_iff, Utf8.replacing_encode⟩
  obtain ⟨text, hrender, hnewline, hmeaning⟩ := report.document.denotes
  refine ⟨text, hrender, hnewline, fun tree => ?_⟩
  simp only [hmeaning tree, Report.document, Json.Document.tree, List.map_cons, List.map_nil,
    Json.Value.tree, List.map_map]
  rfl

end BraceBalance
