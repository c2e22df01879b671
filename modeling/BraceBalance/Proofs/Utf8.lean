/-
  What the pieces of a byte string are, said without the decoder.

  `first?` finds a character exactly where the encoding of one stands
  (`first?_eq_some_iff`).  Everything else is derived from that equation: the pieces of an
  encoded text are its characters, and a byte string may be cut in front of any byte that
  cannot continue an encoding without changing a piece (`pieces_append`).
-/
import BraceBalance.Text.Utf8

set_option autoImplicit false

namespace BraceBalance.Utf8

/-! ## Encodings by width -/

theorem toNat_charOfNat {n : Nat} (h : n.isValidChar) : (Char.ofNat n).toNat = n := by
  rw [Char.ofNat, dif_pos h]
  rfl

theorem encodeChar_one {c : Char} (h : c.toNat ≤ 0x7F) :
    String.utf8EncodeChar c = [UInt8.ofNat c.toNat] :=
  if_pos h

/-- An ASCII byte is the encoding of its character. -/
theorem encodeChar_ofNat {b : UInt8} (hb : b.toNat < 0x80) :
    String.utf8EncodeChar (Char.ofNat b.toNat) = [b] := by
  have hnat : (Char.ofNat b.toNat).toNat = b.toNat := toNat_charOfNat (Or.inl (by omega))
  rw [encodeChar_one (by omega), hnat, UInt8.ofNat_toNat]

theorem encodeChar_two {c : Char} (h₁ : 0x7F < c.toNat) (h₂ : c.toNat ≤ 0x7FF) :
    String.utf8EncodeChar c =
      [UInt8.ofNat (c.toNat / 0x40 % 0x20 + 0xC0), UInt8.ofNat (c.toNat % 0x40 + 0x80)] :=
  (if_neg (Nat.not_le.mpr h₁)).trans (if_pos h₂)

theorem encodeChar_three {c : Char} (h₁ : 0x7FF < c.toNat) (h₂ : c.toNat ≤ 0xFFFF) :
    String.utf8EncodeChar c =
      [UInt8.ofNat (c.toNat / 0x1000 % 0x10 + 0xE0),
        UInt8.ofNat (c.toNat / 0x40 % 0x40 + 0x80), UInt8.ofNat (c.toNat % 0x40 + 0x80)] :=
  (if_neg (by change ¬ c.toNat ≤ _; omega)).trans
    ((if_neg (by change ¬ c.toNat ≤ _; omega)).trans (if_pos h₂))

theorem encodeChar_four {c : Char} (h : 0xFFFF < c.toNat) :
    String.utf8EncodeChar c =
      [UInt8.ofNat (c.toNat / 0x40000 % 0x08 + 0xF0),
        UInt8.ofNat (c.toNat / 0x1000 % 0x40 + 0x80),
        UInt8.ofNat (c.toNat / 0x40 % 0x40 + 0x80), UInt8.ofNat (c.toNat % 0x40 + 0x80)] :=
  (if_neg (by change ¬ c.toNat ≤ _; omega)).trans
    ((if_neg (by change ¬ c.toNat ≤ _; omega)).trans
      (if_neg (by change ¬ c.toNat ≤ _; omega)))

/-- No character is a surrogate or lies above U+10FFFF. -/
theorem toNat_range (c : Char) : c.toNat < 0xD800 ∨ 0xDFFF < c.toNat ∧ c.toNat < 0x110000 :=
  c.valid

theorem isContinuation_iff {b : UInt8} :
    isContinuation b = true ↔ 0x80 ≤ b.toNat ∧ b.toNat < 0xC0 := by
  simp only [isContinuation, Bool.and_eq_true, decide_eq_true_eq, UInt8.le_iff_toNat_le,
    UInt8.toNat_ofNat]
  omega

theorem ofNat_eq_iff {n : Nat} {b : UInt8} (hn : n < 0x100) :
    UInt8.ofNat n = b ↔ n = b.toNat := by
  rw [← UInt8.toNat_inj, UInt8.toNat_ofNat', Nat.mod_eq_of_lt hn]

/-! ## One decoded character -/

theorem pair?_eq_some_iff {a b : UInt8} {c : Char} :
    pair? a b = some c ↔
      0x7F < c.toNat ∧ c.toNat ≤ 0x7FF ∧ String.utf8EncodeChar c = [a, b] := by
  have ha := a.toNat_lt
  have hb := b.toNat_lt
  unfold pair? payload
  simp only [isContinuation_iff, UInt8.le_iff_toNat_le, UInt8.toNat_ofNat]
  constructor
  · intro h
    split at h
    · simp only [Option.some.injEq] at h
      subst h
      have hn : (a.toNat % 32 * 64 + b.toNat % 64).isValidChar := Or.inl (by omega)
      have hlo : 0x7F < (Char.ofNat (a.toNat % 32 * 64 + b.toNat % 64)).toNat := by
        rw [toNat_charOfNat hn]
        omega
      have hhi : (Char.ofNat (a.toNat % 32 * 64 + b.toNat % 64)).toNat ≤ 0x7FF := by
        rw [toNat_charOfNat hn]
        omega
      refine ⟨hlo, hhi, ?_⟩
      rw [encodeChar_two hlo hhi, toNat_charOfNat hn]
      simp (disch := omega) only [List.cons.injEq, and_true, ofNat_eq_iff]
      omega
    · cases h
  · intro h
    obtain ⟨hlo, hhi, henc⟩ := h
    rw [encodeChar_two hlo hhi] at henc
    simp (disch := omega) only [List.cons.injEq, and_true, ofNat_eq_iff] at henc
    rw [if_pos (by omega)]
    have hn : a.toNat % 32 * 64 + b.toNat % 64 = c.toNat := by omega
    rw [Option.some.injEq, hn, Char.ofNat_toNat]

theorem triple?_eq_some_iff {a b d : UInt8} {c : Char} :
    triple? a b d = some c ↔
      0x7FF < c.toNat ∧ c.toNat ≤ 0xFFFF ∧ String.utf8EncodeChar c = [a, b, d] := by
  have ha := a.toNat_lt
  have hb := b.toNat_lt
  have hd := d.toNat_lt
  unfold triple? payload
  simp only [isContinuation_iff, UInt8.le_iff_toNat_le, UInt8.toNat_ofNat]
  constructor
  · intro h
    split at h
    · simp only [Option.some.injEq] at h
      subst h
      have hn : ((a.toNat % 16 * 64 + b.toNat % 64) * 64 + d.toNat % 64).isValidChar := by
        rcases Nat.lt_or_ge ((a.toNat % 16 * 64 + b.toNat % 64) * 64 + d.toNat % 64) 0xD800
          with h | h
        · exact Or.inl h
        · exact Or.inr (by omega)
      have hlo : 0x7FF < (Char.ofNat
          ((a.toNat % 16 * 64 + b.toNat % 64) * 64 + d.toNat % 64)).toNat := by
        rw [toNat_charOfNat hn]
        omega
      have hhi : (Char.ofNat
          ((a.toNat % 16 * 64 + b.toNat % 64) * 64 + d.toNat % 64)).toNat ≤ 0xFFFF := by
        rw [toNat_charOfNat hn]
        omega
      refine ⟨hlo, hhi, ?_⟩
      rw [encodeChar_three hlo hhi, toNat_charOfNat hn]
      simp (disch := omega) only [List.cons.injEq, and_true, ofNat_eq_iff]
      omega
    · cases h
  · intro h
    obtain ⟨hlo, hhi, henc⟩ := h
    have hc := toNat_range c
    rw [encodeChar_three hlo hhi] at henc
    simp (disch := omega) only [List.cons.injEq, and_true, ofNat_eq_iff] at henc
    have hn : (a.toNat % 16 * 64 + b.toNat % 64) * 64 + d.toNat % 64 = c.toNat := by omega
    rw [hn, if_pos (by omega), Option.some.injEq, Char.ofNat_toNat]

theorem quad?_eq_some_iff {a b d e : UInt8} {c : Char} :
    quad? a b d e = some c ↔
      0xFFFF < c.toNat ∧ String.utf8EncodeChar c = [a, b, d, e] := by
  have ha := a.toNat_lt
  have hb := b.toNat_lt
  have hd := d.toNat_lt
  have he := e.toNat_lt
  unfold quad? payload
  simp only [isContinuation_iff, UInt8.le_iff_toNat_le, UInt8.toNat_ofNat]
  constructor
  · intro h
    split at h
    · simp only [Option.some.injEq] at h
      subst h
      have hn : (((a.toNat % 8 * 64 + b.toNat % 64) * 64 + d.toNat % 64) * 64 +
          e.toNat % 64).isValidChar := Or.inr (by omega)
      have hlo : 0xFFFF < (Char.ofNat (((a.toNat % 8 * 64 + b.toNat % 64) * 64 +
          d.toNat % 64) * 64 + e.toNat % 64)).toNat := by
        rw [toNat_charOfNat hn]
        omega
      refine ⟨hlo, ?_⟩
      rw [encodeChar_four hlo, toNat_charOfNat hn]
      simp (disch := omega) only [List.cons.injEq, and_true, ofNat_eq_iff]
      omega
    · cases h
  · intro h
    obtain ⟨hlo, henc⟩ := h
    have hc := toNat_range c
    rw [encodeChar_four hlo] at henc
    simp (disch := omega) only [List.cons.injEq, and_true, ofNat_eq_iff] at henc
    have hn : ((a.toNat % 8 * 64 + b.toNat % 64) * 64 + d.toNat % 64) * 64 + e.toNat % 64 =
        c.toNat := by omega
    rw [hn, if_pos (by omega), Option.some.injEq, Char.ofNat_toNat]

/-- What the decoder finds stands there in its encoding. -/
theorem eq_of_first? {bytes rest : Bytes} {c : Char} (h : first? bytes = some (c, rest)) :
    bytes = String.utf8EncodeChar c ++ rest := by
  unfold first? at h
  split at h
  · cases h
  · rename_i a tail
    split at h
    · rename_i ha
      simp only [Option.some.injEq, Prod.mk.injEq] at h
      obtain ⟨rfl, rfl⟩ := h
      have hlt : a.toNat < 0x80 := by simpa [UInt8.lt_iff_toNat_lt] using ha
      rw [encodeChar_ofNat hlt]
      rfl
    · split at h
      · split at h
        · simp only [Option.map_eq_some_iff, Prod.mk.injEq] at h
          obtain ⟨_, hpair, rfl, rfl⟩ := h
          rw [(pair?_eq_some_iff.mp hpair).2.2]
          rfl
        · cases h
      · split at h
        · split at h
          · simp only [Option.map_eq_some_iff, Prod.mk.injEq] at h
            obtain ⟨_, htriple, rfl, rfl⟩ := h
            rw [(triple?_eq_some_iff.mp htriple).2.2]
            rfl
          · cases h
        · split at h
          · simp only [Option.map_eq_some_iff, Prod.mk.injEq] at h
            obtain ⟨_, hquad, rfl, rfl⟩ := h
            rw [(quad?_eq_some_iff.mp hquad).2]
            rfl
          · cases h

/-- The decoder finds every encoded character. -/
theorem first?_encodeChar (c : Char) (rest : Bytes) :
    first? (String.utf8EncodeChar c ++ rest) = some (c, rest) := by
  have hc := toNat_range c
  -- The width of the encoding decides which branch of the decoder is taken.
  rcases Nat.lt_or_ge 0x7F c.toNat with h₁ | h₁
  · rcases Nat.lt_or_ge 0x7FF c.toNat with h₂ | h₂
    · rcases Nat.lt_or_ge 0xFFFF c.toNat with h₃ | h₃
      · have hquad := quad?_eq_some_iff.mpr ⟨h₃, encodeChar_four h₃⟩
        rw [encodeChar_four h₃]
        simp only [List.cons_append, List.nil_append, first?, UInt8.lt_iff_toNat_lt,
          UInt8.toNat_ofNat, UInt8.toNat_ofNat']
        rw [if_neg (by omega), if_neg (by omega), if_neg (by omega), hquad]
        rfl
      · have htriple := triple?_eq_some_iff.mpr ⟨h₂, h₃, encodeChar_three h₂ h₃⟩
        rw [encodeChar_three h₂ h₃]
        simp only [List.cons_append, List.nil_append, first?, UInt8.lt_iff_toNat_lt,
          UInt8.toNat_ofNat, UInt8.toNat_ofNat']
        rw [if_neg (by omega), if_neg (by omega), if_pos (by omega), htriple]
        rfl
    · have hpair := pair?_eq_some_iff.mpr ⟨h₁, h₂, encodeChar_two h₁ h₂⟩
      rw [encodeChar_two h₁ h₂]
      simp only [List.cons_append, List.nil_append, first?, UInt8.lt_iff_toNat_lt,
        UInt8.toNat_ofNat, UInt8.toNat_ofNat']
      rw [if_neg (by omega), if_pos (by omega), hpair]
      rfl
  · rw [encodeChar_one h₁]
    simp only [List.cons_append, List.nil_append, first?, UInt8.lt_iff_toNat_lt,
      UInt8.toNat_ofNat, UInt8.toNat_ofNat']
    rw [if_pos (by omega), Nat.mod_eq_of_lt (by omega), Char.ofNat_toNat]

/-- A byte string starts with a character exactly if it starts with its encoding. -/
theorem first?_eq_some_iff {bytes rest : Bytes} {c : Char} :
    first? bytes = some (c, rest) ↔ bytes = String.utf8EncodeChar c ++ rest := by
  constructor
  · exact eq_of_first?
  · intro h
    rw [h, first?_encodeChar]

/-- What is decoded from a byte string is decoded from every longer one. -/
theorem first?_append {bytes rest : Bytes} {c : Char} (h : first? bytes = some (c, rest))
    (more : Bytes) : first? (bytes ++ more) = some (c, rest ++ more) := by
  rw [first?_eq_some_iff] at h ⊢
  rw [h, List.append_assoc]

/-- The shape of an encoding: a lead byte, which is ASCII only if the character is, and
continuation bytes. -/
theorem encodeChar_shape (c : Char) :
    ∃ lead tail, String.utf8EncodeChar c = lead :: tail ∧
      (0x7F < c.toNat → 0x80 ≤ lead.toNat) ∧ ∀ b ∈ tail, 0x80 ≤ b.toNat ∧ b.toNat < 0xC0 := by
  have hnext : ∀ n, 0x80 ≤ (UInt8.ofNat (n % 0x40 + 0x80)).toNat ∧
      (UInt8.ofNat (n % 0x40 + 0x80)).toNat < 0xC0 := by
    intro n
    rw [UInt8.toNat_ofNat']
    omega
  rcases Nat.lt_or_ge 0x7F c.toNat with h₁ | h₁
  · rcases Nat.lt_or_ge 0x7FF c.toNat with h₂ | h₂
    · rcases Nat.lt_or_ge 0xFFFF c.toNat with h₃ | h₃
      · refine ⟨_, _, encodeChar_four h₃, fun _ => ?_, ?_⟩
        · rw [UInt8.toNat_ofNat']
          omega
        · simp only [List.forall_mem_cons, hnext, true_and]
          exact List.forall_mem_nil _
      · refine ⟨_, _, encodeChar_three h₂ h₃, fun _ => ?_, ?_⟩
        · rw [UInt8.toNat_ofNat']
          omega
        · simp only [List.forall_mem_cons, hnext, true_and]
          exact List.forall_mem_nil _
    · refine ⟨_, _, encodeChar_two h₁ h₂, fun _ => ?_, ?_⟩
      · rw [UInt8.toNat_ofNat']
        omega
      · simp only [List.forall_mem_cons, hnext, true_and]
        exact List.forall_mem_nil _
  · refine ⟨_, [], encodeChar_one h₁, fun hlt => absurd hlt (Nat.not_lt.mpr h₁), ?_⟩
    exact List.forall_mem_nil _

/-- The encodings of characters beyond ASCII hold no ASCII byte. -/
theorem le_of_mem_encodeChar {c : Char} (hc : 0x7F < c.toNat) {b : UInt8}
    (hb : b ∈ String.utf8EncodeChar c) : 0x80 ≤ b.toNat := by
  obtain ⟨lead, tail, hcode, hlead, htail⟩ := encodeChar_shape c
  rw [hcode, List.mem_cons] at hb
  rcases hb with rfl | hb
  · exact hlead hc
  · exact (htail b hb).1

/-- Every byte of an encoding but its first continues it. -/
theorem isContinuation_of_mem_tail {c : Char} {b : UInt8}
    (hb : b ∈ (String.utf8EncodeChar c).tail) : isContinuation b = true := by
  obtain ⟨lead, tail, hcode, -, htail⟩ := encodeChar_shape c
  rw [hcode] at hb
  exact isContinuation_iff.mpr (htail b hb)

/-! ## The bytes of the pieces -/

/-- The bytes that a piece stands for. -/
def Piece.bytes : Piece → Bytes
  | .char c => String.utf8EncodeChar c
  | .stray b => [b]

theorem pieces_encodeChar_append (c : Char) (rest : Bytes) :
    pieces (String.utf8EncodeChar c ++ rest) = .char c :: pieces rest :=
  pieces_of_first? (first?_encodeChar c rest)

/-- Every byte string is built from its pieces. -/
theorem induct {motive : Bytes → Prop} (nil : motive [])
    (char : ∀ c rest, motive rest → motive (String.utf8EncodeChar c ++ rest))
    (stray : ∀ b rest, first? (b :: rest) = none → motive rest → motive (b :: rest))
    (bytes : Bytes) : motive bytes := by
  induction hn : bytes.length using Nat.strongRecOn generalizing bytes with
  | _ n ih =>
    subst hn
    cases bytes with
    | nil => exact nil
    | cons b tail =>
      cases hfirst : first? (b :: tail) with
      | some found =>
        obtain ⟨c, rest⟩ := found
        rw [eq_of_first? hfirst]
        exact char c rest (ih _ (length_lt_of_first? hfirst) rest rfl)
      | none => exact stray b tail hfirst (ih _ (by simp) tail rfl)

/-- Nothing is lost between the pieces. -/
theorem flatMap_bytes_pieces (bytes : Bytes) : (pieces bytes).flatMap Piece.bytes = bytes := by
  induction bytes using induct with
  | nil => simp
  | char c rest ih =>
    rw [pieces_encodeChar_append, List.flatMap_cons, ih]
    rfl
  | stray b rest hstray ih =>
    rw [pieces_cons_stray hstray, List.flatMap_cons, ih]
    rfl

/-- The bytes of a decoded character stand in the byte string. -/
theorem mem_of_mem_text {bytes : Bytes} {c : Char} (hc : c ∈ text bytes) {b : UInt8}
    (hb : b ∈ String.utf8EncodeChar c) : b ∈ bytes := by
  obtain ⟨piece, hpiece, hchar⟩ := List.mem_filterMap.mp hc
  cases piece with
  | stray d => cases hchar
  | char d =>
    cases hchar
    rw [← flatMap_bytes_pieces bytes]
    exact List.mem_flatMap.mpr ⟨.char c, hpiece, hb⟩

/-! ## Cutting a byte string -/

/-- Bytes that cannot stand inside an encoding: the byte string may be cut before them. -/
def IsStart (bytes : Bytes) : Prop := ∀ b ∈ bytes.head?, isContinuation b = false

theorem isStart_cons_ascii {b : UInt8} (hb : b.toNat < 0x80) (rest : Bytes) :
    IsStart (b :: rest) := by
  intro d hd
  simp only [List.head?_cons, Option.mem_some_iff] at hd
  subst hd
  rw [← Bool.not_eq_true, isContinuation_iff]
  omega

/-- A cut before a starting byte does not let a character in that the left side lacks. -/
theorem first?_append_eq_none {b : UInt8} {left right : Bytes} (hright : IsStart right)
    (h : first? (b :: left) = none) : first? (b :: left ++ right) = none := by
  rw [Option.eq_none_iff_forall_ne_some]
  intro found hc
  obtain ⟨c, rest⟩ := found
  rw [first?_eq_some_iff, List.append_eq_append_iff] at hc
  rcases hc with ⟨inside, hcode, hrest⟩ | ⟨behind, hleft, -⟩
  · cases inside with
    | nil =>
      rw [List.append_nil] at hcode
      have hsome : first? (b :: left) = some (c, []) := by
        rw [first?_eq_some_iff, hcode, List.append_nil]
      rw [h] at hsome
      cases hsome
    | cons d inside =>
      -- The first byte behind the cut would continue the encoding of `c`.
      have hd : isContinuation d = true := by
        apply isContinuation_of_mem_tail (c := c)
        rw [hcode]
        simp
      rw [hright d (by simp [hrest])] at hd
      cases hd
  · have hsome : first? (b :: left) = some (c, behind) := first?_eq_some_iff.mpr hleft
    rw [h] at hsome
    cases hsome

/-- Cut before a starting byte, a byte string has the pieces of its two parts. -/
theorem pieces_append (left : Bytes) {right : Bytes} (hright : IsStart right) :
    pieces (left ++ right) = pieces left ++ pieces right := by
  induction left using induct with
  | nil => simp
  | char c rest ih =>
    rw [List.append_assoc, pieces_encodeChar_append, pieces_encodeChar_append, ih]
    rfl
  | stray b rest hstray ih =>
    have hbehind : first? (b :: (rest ++ right)) = none := first?_append_eq_none hright hstray
    rw [List.cons_append, pieces_cons_stray hbehind, pieces_cons_stray hstray, ih]
    rfl

theorem text_append (left : Bytes) {right : Bytes} (hright : IsStart right) :
    text (left ++ right) = text left ++ text right := by
  rw [text, pieces_append left hright, List.filterMap_append]
  rfl

@[simp] theorem text_nil : text [] = [] := by simp [text]

theorem text_encodeChar_append (c : Char) (rest : Bytes) :
    text (String.utf8EncodeChar c ++ rest) = c :: text rest := by
  rw [text, pieces_encodeChar_append]
  rfl

theorem text_cons_stray {b : UInt8} {rest : Bytes} (h : first? (b :: rest) = none) :
    text (b :: rest) = text rest := by
  rw [text, pieces_cons_stray h]
  rfl

/-- A stray byte is beyond ASCII, and stays stray when less follows it. -/
theorem stray_of_first?_eq_none {b : UInt8} {rest : Bytes} (h : first? (b :: rest) = none) :
    0x80 ≤ b.toNat ∧ ∀ count, first? (b :: rest.take count) = none := by
  constructor
  · rw [← Nat.not_lt]
    intro hlt
    have hsome : first? (b :: rest) = some (Char.ofNat b.toNat, rest) := by
      rw [first?_eq_some_iff, encodeChar_ofNat hlt]
      rfl
    rw [h] at hsome
    cases hsome
  · intro count
    rw [Option.eq_none_iff_forall_ne_some]
    intro found hfirst
    obtain ⟨c, behind⟩ := found
    have hsome := first?_append hfirst (rest.drop count)
    rw [List.cons_append, List.take_append_drop, h] at hsome
    cases hsome

/-- An ASCII byte is a piece by itself, whatever follows. -/
theorem pieces_cons_ascii {b : UInt8} (hb : b.toNat < 0x80) (rest : Bytes) :
    pieces (b :: rest) = .char (Char.ofNat b.toNat) :: pieces rest := by
  apply pieces_of_first?
  rw [first?_eq_some_iff, encodeChar_ofNat hb]
  rfl

theorem text_cons_ascii {b : UInt8} (hb : b.toNat < 0x80) (rest : Bytes) :
    text (b :: rest) = Char.ofNat b.toNat :: text rest := by
  rw [text, pieces_cons_ascii hb]
  rfl

/-- No ASCII byte is dropped. -/
theorem mem_text_of_mem {bytes : Bytes} {b : UInt8} (hb : b.toNat < 0x80) (hmem : b ∈ bytes) :
    Char.ofNat b.toNat ∈ text bytes := by
  obtain ⟨left, right, rfl⟩ := List.append_of_mem hmem
  rw [text_append left (isStart_cons_ascii hb right), text_cons_ascii hb]
  simp

/-! ## A byte string that goes on -/

theorem first?_cons_continuation {b : UInt8} (hb : isContinuation b = true) (rest : Bytes) :
    first? (b :: rest) = none := by
  have hrange := isContinuation_iff.mp hb
  cases rest with
  | nil =>
    simp only [first?, UInt8.lt_iff_toNat_lt, UInt8.toNat_ofNat]
    rw [if_neg (by omega), if_pos (by omega)]
  | cons next rest =>
    simp only [first?, pair?, UInt8.lt_iff_toNat_lt, UInt8.le_iff_toNat_le, UInt8.toNat_ofNat]
    rw [if_neg (by omega), if_pos (by omega), if_neg (by omega)]
    rfl

/-- Bytes that only continue encodings hold no character. -/
theorem text_continuations {bytes : Bytes} (h : ∀ b ∈ bytes, isContinuation b = true) :
    text bytes = [] := by
  induction bytes with
  | nil => exact text_nil
  | cons b bytes ih =>
    rw [text_cons_stray (first?_cons_continuation (h b List.mem_cons_self) bytes)]
    exact ih fun d hd => h d (List.mem_cons_of_mem b hd)

/-- The characters of a byte string stay what they are when more bytes follow, wherever it
breaks off. -/
theorem text_prefix (front back : Bytes) : text front <+: text (front ++ back) := by
  induction front using induct with
  | nil =>
    rw [text_nil]
    exact List.nil_prefix
  | char c rest ih =>
    rw [List.append_assoc, text_encodeChar_append, text_encodeChar_append]
    exact List.cons_prefix_cons.mpr ⟨rfl, ih⟩
  | stray b rest hstray ih =>
    rw [text_cons_stray hstray]
    cases hfirst : first? (b :: (rest ++ back)) with
    | none =>
      rw [List.cons_append, text_cons_stray hfirst]
      exact ih
    | some found =>
      -- A character starts here that only the bytes behind the break complete, so all bytes
      -- in front of the break but the first continue it.
      obtain ⟨c, behind⟩ := found
      have hcode := first?_eq_some_iff.mp hfirst
      rw [← List.cons_append, List.append_eq_append_iff] at hcode
      rcases hcode with ⟨inside, hcode, -⟩ | ⟨behind', hrest, -⟩
      · have hcontinues : ∀ d ∈ rest, isContinuation d = true := by
          intro d hd
          apply isContinuation_of_mem_tail (c := c)
          rw [hcode]
          exact List.mem_append_left inside hd
        rw [text_continuations hcontinues]
        exact List.nil_prefix
      · have hsome := first?_eq_some_iff.mpr hrest
        rw [hstray] at hsome
        cases hsome

/-! ## Encoded texts -/

theorem encode_append (front rest : List Char) :
    encode (front ++ rest) = encode front ++ encode rest :=
  List.flatMap_append

theorem pieces_encode (chars : List Char) : pieces (encode chars) = chars.map .char := by
  induction chars with
  | nil => simp [encode]
  | cons c chars ih =>
    rw [List.map_cons, ← ih]
    exact pieces_encodeChar_append c (encode chars)

theorem text_encode (chars : List Char) : text (encode chars) = chars := by
  rw [text, pieces_encode, List.filterMap_map]
  exact List.filterMap_some

theorem replacing_encode (chars : List Char) : replacing (encode chars) = chars := by
  rw [replacing, pieces_encode, List.map_map]
  exact List.map_id chars

/-! ## Replacing stray bytes -/

/-- A byte string read as characters, U+FFFD standing for each byte at which no encoding of a
character starts. -/
inductive Replaced : Bytes → List Char → Prop where
  | nil : Replaced [] []
  | char {c : Char} {rest : Bytes} {chars : List Char} : Replaced rest chars →
      Replaced (String.utf8EncodeChar c ++ rest) (c :: chars)
  | stray {b : UInt8} {rest : Bytes} {chars : List Char} :
      (∀ c behind, b :: rest ≠ String.utf8EncodeChar c ++ behind) → Replaced rest chars →
      Replaced (b :: rest) ('\uFFFD' :: chars)

theorem first?_eq_none_iff {bytes : Bytes} :
    first? bytes = none ↔ ∀ c behind, bytes ≠ String.utf8EncodeChar c ++ behind := by
  rw [Option.eq_none_iff_forall_ne_some]
  constructor
  · intro h c behind heq
    exact h (c, behind) (first?_eq_some_iff.mpr heq)
  · rintro h ⟨c, behind⟩ hsome
    exact h c behind (first?_eq_some_iff.mp hsome)

theorem replaced_iff {bytes : Bytes} {chars : List Char} :
    Replaced bytes chars ↔ chars = replacing bytes := by
  constructor
  · intro h
    induction h with
    | nil => simp [replacing]
    | char _ ih =>
      rw [replacing, pieces_encodeChar_append, ih]
      rfl
    | stray hstray _ ih =>
      rw [replacing, pieces_cons_stray (first?_eq_none_iff.mpr hstray), ih]
      rfl
  · rintro rfl
    induction bytes using induct with
    | nil =>
      rw [replacing, pieces_nil]
      exact .nil
    | char c rest ih =>
      rw [replacing, pieces_encodeChar_append]
      exact .char ih
    | stray b rest hstray ih =>
      rw [replacing, pieces_cons_stray hstray]
      exact .stray (first?_eq_none_iff.mp hstray) ih

end BraceBalance.Utf8
