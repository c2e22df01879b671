/-
  The grammar of JSON, with what each text means.

  Every relation here reads a phrase off the front of a text: `text`, what the phrase means,
  and the `rest` behind it.  Numbers mean a mantissa and a power of ten, strings mean their
  characters, and lists and objects are built from phrases of their items.  The grammar knows
  nothing of any writer.  It is unambiguous (`denotes_unique`): phrases are told apart by
  their first character, and a number is cut where no character can carry it on.
-/
import BraceBalance.Proofs.Run

set_option autoImplicit false

namespace BraceBalance.Json

/-! ## Meanings -/

/-- What a JSON text means. -/
inductive Tree where
  | null
  | bool (value : Bool)
  /-- The number `mantissa * 10 ^ exponent`. -/
  | number (mantissa exponent : Int)
  | string (text : List Char)
  | array (items : List Tree)
  | object (members : List (List Char × Tree))

/-! ## Blanks -/

/-- The characters that may stand between phrases. -/
def isSpace (c : Char) : Bool := c = ' ' || c = '\t' || c = '\n' || c = '\r'

/-- A text is another one behind blanks. -/
def Blanks (text rest : List Char) : Prop :=
  ∃ blanks, text = blanks ++ rest ∧ ∀ c ∈ blanks, isSpace c = true

/-! ## Numbers -/

/-- The number that decimal digits give. -/
def decimal (digits : List Char) : Nat := Nat.ofDigitChars 10 digits 0

/-- The digits in front of the point: a zero by itself, or digits that start with no zero. -/
inductive Whole : List Char → List Char → List Char → Prop where
  | zero {rest : List Char} : Whole ('0' :: rest) ['0'] rest
  | digits {first : Char} {digits rest : List Char} : first ≠ '0' →
      IsRun Char.isDigit (first :: digits) →
      Whole (first :: digits ++ rest) (first :: digits) rest

/-- The digits behind the point, if there is one. -/
inductive Fraction : List Char → List Char → List Char → Prop where
  | absent {rest : List Char} : Fraction rest [] rest
  | present {digits rest : List Char} : IsRun Char.isDigit digits →
      Fraction ('.' :: digits ++ rest) digits rest

/-- A power of ten behind its mark. -/
inductive Power : List Char → Int → List Char → Prop where
  | unsigned {digits rest : List Char} : IsRun Char.isDigit digits →
      Power (digits ++ rest) (decimal digits) rest
  | plus {digits rest : List Char} : IsRun Char.isDigit digits →
      Power ('+' :: digits ++ rest) (decimal digits) rest
  | minus {digits rest : List Char} : IsRun Char.isDigit digits →
      Power ('-' :: digits ++ rest) (-decimal digits) rest

/-- The power of ten of a number, if it gives one. -/
inductive Exponent : List Char → Int → List Char → Prop where
  | absent {rest : List Char} : Exponent rest 0 rest
  | present {mark : Char} {text rest : List Char} {power : Int} : mark = 'e' ∨ mark = 'E' →
      Power text power rest → Exponent (mark :: text) power rest

/-- A number without sign. -/
inductive Unsigned : List Char → Nat → Int → List Char → Prop where
  | mk {text whole middle fraction behind rest : List Char} {power : Int} :
      Whole text whole middle → Fraction middle fraction behind → Exponent behind power rest →
      Unsigned text (decimal (whole ++ fraction)) (power - fraction.length) rest

/-- A number. -/
inductive Number : List Char → Int → Int → List Char → Prop where
  | plain {text rest : List Char} {mantissa : Nat} {exponent : Int} :
      Unsigned text mantissa exponent rest → Number text mantissa exponent rest
  | minus {text rest : List Char} {mantissa : Nat} {exponent : Int} :
      Unsigned text mantissa exponent rest → Number ('-' :: text) (-mantissa) exponent rest

/-! ## Strings -/

/-- The character that a letter behind a backslash stands for. -/
def shortEscape? : Char → Option Char
  | '"' => some '"'
  | '\\' => some '\\'
  | '/' => some '/'
  | 'b' => some '\x08'
  | 'f' => some '\x0C'
  | 'n' => some '\n'
  | 'r' => some '\r'
  | 't' => some '\t'
  | _ => none

/-- The number of a hexadecimal digit in either case. -/
def hexDigit? (c : Char) : Option Nat :=
  if c.isDigit then some (c.toNat - '0'.toNat)
  else if 'a' ≤ c ∧ c ≤ 'f' then some (c.toNat - 'a'.toNat + 10)
  else if 'A' ≤ c ∧ c ≤ 'F' then some (c.toNat - 'A'.toNat + 10)
  else none

/-- An escaped code unit of 16 bits: a backslash, a `u` and four hexadecimal digits. -/
inductive CodeUnit : List Char → Nat → List Char → Prop where
  | mk {a b c d : Char} {i j k l : Nat} {rest : List Char} : hexDigit? a = some i →
      hexDigit? b = some j → hexDigit? c = some k → hexDigit? d = some l →
      CodeUnit ('\\' :: 'u' :: a :: b :: c :: d :: rest) (((i * 16 + j) * 16 + k) * 16 + l) rest

/-- The characters of a string up to its closing mark.  A character may stand for itself
unless it is a mark, a backslash or a control character; a code unit stands for itself unless
it is a surrogate; surrogates come in pairs. -/
inductive Chars : List Char → List Char → List Char → Prop where
  | close {rest : List Char} : Chars ('"' :: rest) [] rest
  | plain {c : Char} {text chars rest : List Char} : c ≠ '"' → c ≠ '\\' → 0x20 ≤ c.toNat →
      Chars text chars rest → Chars (c :: text) (c :: chars) rest
  | short {letter c : Char} {text chars rest : List Char} : shortEscape? letter = some c →
      Chars text chars rest → Chars ('\\' :: letter :: text) (c :: chars) rest
  | unit {text behind chars rest : List Char} {n : Nat} : CodeUnit text n behind →
      ¬ (0xD800 ≤ n ∧ n ≤ 0xDFFF) → Chars behind chars rest →
      Chars text (Char.ofNat n :: chars) rest
  | pair {text middle behind chars rest : List Char} {high low : Nat} :
      CodeUnit text high middle → 0xD800 ≤ high ∧ high ≤ 0xDBFF →
      CodeUnit middle low behind → 0xDC00 ≤ low ∧ low ≤ 0xDFFF → Chars behind chars rest →
      Chars text (Char.ofNat (0x10000 + (high - 0xD800) * 0x400 + (low - 0xDC00)) :: chars) rest

/-! ## Phrases -/

/-- What lists are made of: values between square brackets, members between braces. -/
inductive Item where
  | value
  | member
  deriving DecidableEq, Repr

namespace Item

/-- What an item means. -/
def Meaning : Item → Type
  | .value => Tree
  | .member => List Char × Tree

/-- The bracket that ends a list of items. -/
def closing : Item → Char
  | .value => ']'
  | .member => '}'

end Item

/-- The phrases of the grammar: an item, and one or more items up to their closing bracket. -/
inductive Phrase where
  | one (item : Item)
  | list (item : Item)
  deriving DecidableEq, Repr

/-- What a phrase means. -/
def Phrase.Meaning : Phrase → Type
  | .one item => item.Meaning
  | .list item => List item.Meaning

/-- The productions of the grammar. -/
inductive Derives : (phrase : Phrase) → List Char → phrase.Meaning → List Char → Prop where
  | null {rest : List Char} :
      Derives (.one .value) ('n' :: 'u' :: 'l' :: 'l' :: rest) Tree.null rest
  | isTrue {rest : List Char} :
      Derives (.one .value) ('t' :: 'r' :: 'u' :: 'e' :: rest) (Tree.bool true) rest
  | isFalse {rest : List Char} :
      Derives (.one .value) ('f' :: 'a' :: 'l' :: 's' :: 'e' :: rest) (Tree.bool false) rest
  | number {text rest : List Char} {mantissa exponent : Int} :
      Number text mantissa exponent rest →
      Derives (.one .value) text (Tree.number mantissa exponent) rest
  | string {text chars rest : List Char} : Chars text chars rest →
      Derives (.one .value) ('"' :: text) (Tree.string chars) rest
  | emptyArray {text rest : List Char} : Blanks text (']' :: rest) →
      Derives (.one .value) ('[' :: text) (Tree.array []) rest
  | array {text rest : List Char} {items : List Tree} :
      Derives (.list .value) text items rest →
      Derives (.one .value) ('[' :: text) (Tree.array items) rest
  | emptyObject {text rest : List Char} : Blanks text ('}' :: rest) →
      Derives (.one .value) ('{' :: text) (Tree.object []) rest
  | object {text rest : List Char} {members : List (List Char × Tree)} :
      Derives (.list .member) text members rest →
      Derives (.one .value) ('{' :: text) (Tree.object members) rest
  | member {text key middle colon start rest : List Char} {tree : Tree} :
      Chars text key middle → Blanks middle (':' :: colon) → Blanks colon start →
      Derives (.one .value) start tree rest →
      Derives (.one .member) ('"' :: text) (key, tree) rest
  | last {item : Item} {text start behind rest : List Char} {meaning : item.Meaning} :
      Blanks text start → Derives (.one item) start meaning behind →
      Blanks behind (item.closing :: rest) → Derives (.list item) text [meaning] rest
  | more {item : Item} {text start behind next rest : List Char} {meaning : item.Meaning}
      {meanings : List item.Meaning} :
      Blanks text start → Derives (.one item) start meaning behind →
      Blanks behind (',' :: next) → Derives (.list item) next meanings rest →
      Derives (.list item) text (meaning :: meanings) rest

/-- A text is a JSON document with a meaning: one value, with blanks around it. -/
def Denotes (text : List Char) (tree : Tree) : Prop :=
  ∃ start behind, Blanks text start ∧ Derives (.one .value) start tree behind ∧ Blanks behind []

/-! ## Blanks have one end -/

theorem Blanks.refl (text : List Char) : Blanks text text :=
  ⟨[], rfl, List.forall_mem_nil _⟩

theorem Blanks.cons {c : Char} (hc : isSpace c = true) {text rest : List Char}
    (h : Blanks text rest) : Blanks (c :: text) rest := by
  obtain ⟨blanks, rfl, hblanks⟩ := h
  exact ⟨c :: blanks, rfl, List.forall_mem_cons.mpr ⟨hc, hblanks⟩⟩

theorem Blanks.unique {text rest rest' : List Char} (h : Blanks text rest)
    (h' : Blanks text rest') (hrest : EndsRun isSpace rest) (hrest' : EndsRun isSpace rest') :
    rest = rest' := by
  obtain ⟨blanks, rfl, hblanks⟩ := h
  obtain ⟨blanks', heq, hblanks'⟩ := h'
  exact (run_unique hblanks hblanks' hrest hrest' heq).2

/-- Behind blanks that both end with a bracket or another mark, the marks are the same. -/
theorem Blanks.unique_cons {text rest rest' : List Char} {c d : Char}
    (h : Blanks text (c :: rest)) (h' : Blanks text (d :: rest')) (hc : isSpace c = false)
    (hd : isSpace d = false) : c = d ∧ rest = rest' := by
  have heq := h.unique h' (endsRun_cons hc rest) (endsRun_cons hd rest')
  cases heq
  exact ⟨rfl, rfl⟩

/-! ## Numbers have one end -/

/-- A text that cannot carry a number on. -/
def Stops (text : List Char) : Prop :=
  ∀ c ∈ text.head?, c.isDigit = false ∧ c ≠ '.' ∧ c ≠ 'e' ∧ c ≠ 'E'

theorem stops_nil : Stops [] := by
  intro c hc
  cases hc

theorem stops_cons {c : Char} (hc : c.isDigit = false ∧ c ≠ '.' ∧ c ≠ 'e' ∧ c ≠ 'E')
    (text : List Char) : Stops (c :: text) := by
  intro d hd
  cases hd
  exact hc

theorem Stops.of_blanks {text rest : List Char} (hrest : Stops rest) (h : Blanks text rest) :
    Stops text := by
  obtain ⟨blanks, rfl, hblanks⟩ := h
  cases blanks with
  | nil => exact hrest
  | cons c blanks =>
    have hc := hblanks c List.mem_cons_self
    simp only [isSpace, Bool.or_eq_true, decide_eq_true_eq] at hc
    apply stops_cons
    rcases hc with ((rfl | rfl) | rfl) | rfl <;> decide

theorem Stops.endsRun {text : List Char} (h : Stops text) : EndsRun Char.isDigit text :=
  fun c hc => (h c hc).1

theorem Exponent.head {text rest : List Char} {power : Int} (h : Exponent text power rest)
    (hrest : Stops rest) : EndsRun Char.isDigit text ∧ text.head? ≠ some '.' := by
  cases h with
  | absent => exact ⟨hrest.endsRun, fun hhead => (hrest _ hhead).2.1 rfl⟩
  | present hmark _ => rcases hmark with rfl | rfl <;> exact ⟨endsRun_cons rfl _, by simp⟩

theorem Fraction.head {text digits rest : List Char} (h : Fraction text digits rest)
    (hrest : EndsRun Char.isDigit rest) : EndsRun Char.isDigit text := by
  cases h with
  | absent => exact hrest
  | present _ => exact endsRun_cons rfl _

theorem Whole.unique {text digits digits' rest rest' : List Char} (h : Whole text digits rest)
    (h' : Whole text digits' rest') (hrest : EndsRun Char.isDigit rest)
    (hrest' : EndsRun Char.isDigit rest') : digits = digits' ∧ rest = rest' := by
  cases h with
  | zero =>
    cases h' with
    | zero => exact ⟨rfl, rfl⟩
    | digits hfirst _ => exact absurd rfl hfirst
  | digits hfirst hrun =>
    generalize htext : _ :: _ ++ rest = text at h'
    cases h' with
    | zero =>
      cases htext
      exact absurd rfl hfirst
    | digits _ hrun' => exact run_unique hrun.passes hrun'.passes hrest hrest' htext

theorem Fraction.unique {text digits digits' rest rest' : List Char}
    (h : Fraction text digits rest) (h' : Fraction text digits' rest')
    (hrest : EndsRun Char.isDigit rest) (hrest' : EndsRun Char.isDigit rest')
    (hpoint : rest.head? ≠ some '.') (hpoint' : rest'.head? ≠ some '.') :
    digits = digits' ∧ rest = rest' := by
  cases h with
  | absent =>
    cases h' with
    | absent => exact ⟨rfl, rfl⟩
    | present _ => exact absurd rfl hpoint
  | present hrun =>
    generalize htext : '.' :: digits ++ rest = text at h'
    cases h' with
    | absent => exact absurd (by rw [← htext]; rfl) hpoint'
    | present hrun' =>
      exact run_unique hrun.passes hrun'.passes hrest hrest' (List.cons.inj htext).2

theorem Power.unique {text rest rest' : List Char} {power power' : Int}
    (h : Power text power rest) (h' : Power text power' rest')
    (hrest : EndsRun Char.isDigit rest) (hrest' : EndsRun Char.isDigit rest') :
    power = power' ∧ rest = rest' := by
  cases h with
  | unsigned hrun =>
    generalize htext : _ ++ rest = text at h'
    cases h' with
    | unsigned hrun' =>
      obtain ⟨rfl, rfl⟩ := run_unique hrun.passes hrun'.passes hrest hrest' htext
      exact ⟨rfl, rfl⟩
    | plus _ => exact absurd (hrun.test_first htext) (by decide)
    | minus _ => exact absurd (hrun.test_first htext) (by decide)
  | plus hrun =>
    generalize htext : '+' :: _ ++ rest = text at h'
    cases h' with
    | unsigned hrun' => exact absurd (hrun'.test_first htext.symm) (by decide)
    | plus hrun' =>
      obtain ⟨rfl, rfl⟩ :=
        run_unique hrun.passes hrun'.passes hrest hrest' (List.cons.inj htext).2
      exact ⟨rfl, rfl⟩
    | minus _ => cases htext
  | minus hrun =>
    generalize htext : '-' :: _ ++ rest = text at h'
    cases h' with
    | unsigned hrun' => exact absurd (hrun'.test_first htext.symm) (by decide)
    | plus _ => cases htext
    | minus hrun' =>
      obtain ⟨rfl, rfl⟩ :=
        run_unique hrun.passes hrun'.passes hrest hrest' (List.cons.inj htext).2
      exact ⟨rfl, rfl⟩

theorem Exponent.unique {text rest rest' : List Char} {power power' : Int}
    (h : Exponent text power rest) (h' : Exponent text power' rest') (hrest : Stops rest)
    (hrest' : Stops rest') : power = power' ∧ rest = rest' := by
  cases h with
  | absent =>
    cases h' with
    | absent => exact ⟨rfl, rfl⟩
    | present hmark _ =>
      obtain ⟨_, _, hlower, hupper⟩ := hrest _ rfl
      exact absurd hmark (not_or_intro hlower hupper)
  | present hmark hpower =>
    cases h' with
    | absent =>
      obtain ⟨_, _, hlower, hupper⟩ := hrest' _ rfl
      exact absurd hmark (not_or_intro hlower hupper)
    | present _ hpower' => exact hpower.unique hpower' hrest.endsRun hrest'.endsRun

theorem Unsigned.unique {text rest rest' : List Char} {mantissa mantissa' : Nat}
    {exponent exponent' : Int} (h : Unsigned text mantissa exponent rest)
    (h' : Unsigned text mantissa' exponent' rest') (hrest : Stops rest) (hrest' : Stops rest') :
    mantissa = mantissa' ∧ exponent = exponent' ∧ rest = rest' := by
  obtain ⟨hwhole, hfraction, hexponent⟩ := h
  obtain ⟨hwhole', hfraction', hexponent'⟩ := h'
  -- what follows a part does not carry that part on, so each part ends at one place
  obtain ⟨hbehind, hpoint⟩ := hexponent.head hrest
  obtain ⟨hbehind', hpoint'⟩ := hexponent'.head hrest'
  obtain ⟨rfl, rfl⟩ := hwhole.unique hwhole' (hfraction.head hbehind) (hfraction'.head hbehind')
  obtain ⟨rfl, rfl⟩ := hfraction.unique hfraction' hbehind hbehind' hpoint hpoint'
  obtain ⟨rfl, rfl⟩ := hexponent.unique hexponent' hrest hrest'
  exact ⟨rfl, rfl, rfl⟩

theorem Unsigned.first {text rest : List Char} {mantissa : Nat} {exponent : Int}
    (h : Unsigned text mantissa exponent rest) :
    ∃ c behind, text = c :: behind ∧ c.isDigit = true := by
  obtain ⟨hwhole, _, _⟩ := h
  cases hwhole with
  | zero => exact ⟨_, _, rfl, rfl⟩
  | digits _ hrun => exact ⟨_, _, rfl, hrun.passes _ List.mem_cons_self⟩

theorem Number.first {text rest : List Char} {mantissa exponent : Int}
    (h : Number text mantissa exponent rest) :
    ∃ c behind, text = c :: behind ∧ (c = '-' ∨ c.isDigit = true) := by
  cases h with
  | plain hunsigned =>
    obtain ⟨c, behind, htext, hc⟩ := hunsigned.first
    exact ⟨c, behind, htext, .inr hc⟩
  | minus _ => exact ⟨_, _, rfl, .inl rfl⟩

theorem Number.first_cons {c : Char} {text rest : List Char} {mantissa exponent : Int}
    (h : Number (c :: text) mantissa exponent rest) : c = '-' ∨ c.isDigit = true := by
  obtain ⟨_, _, htext, hc⟩ := h.first
  cases htext
  exact hc

theorem Number.unique {text rest rest' : List Char} {mantissa mantissa' exponent exponent' : Int}
    (h : Number text mantissa exponent rest) (h' : Number text mantissa' exponent' rest')
    (hrest : Stops rest) (hrest' : Stops rest') :
    mantissa = mantissa' ∧ exponent = exponent' ∧ rest = rest' := by
  cases h with
  | plain hunsigned =>
    cases h' with
    | plain hunsigned' =>
      obtain ⟨rfl, rfl, rfl⟩ := hunsigned.unique hunsigned' hrest hrest'
      exact ⟨rfl, rfl, rfl⟩
    | minus _ =>
      obtain ⟨_, _, htext, hc⟩ := hunsigned.first
      cases htext
      exact absurd hc (by decide)
  | minus hunsigned =>
    cases h' with
    | plain hunsigned' =>
      obtain ⟨_, _, htext, hc⟩ := hunsigned'.first
      cases htext
      exact absurd hc (by decide)
    | minus hunsigned' =>
      obtain ⟨rfl, rfl, rfl⟩ := hunsigned.unique hunsigned' hrest hrest'
      exact ⟨rfl, rfl, rfl⟩

/-! ## Strings have one end -/

theorem CodeUnit.unique {text rest rest' : List Char} {n n' : Nat} (h : CodeUnit text n rest)
    (h' : CodeUnit text n' rest') : n = n' ∧ rest = rest' := by
  obtain ⟨hi, hj, hk, hl⟩ := h
  obtain ⟨hi', hj', hk', hl'⟩ := h'
  cases hi.symm.trans hi'
  cases hj.symm.trans hj'
  cases hk.symm.trans hk'
  cases hl.symm.trans hl'
  exact ⟨rfl, rfl⟩

/-- A string that goes on with a code unit is read by that unit alone or by a pair. -/
theorem Chars.of_codeUnit {text behind chars rest : List Char} {n : Nat}
    (h : Chars text chars rest) (hunit : CodeUnit text n behind) :
    (∃ others, ¬ (0xD800 ≤ n ∧ n ≤ 0xDFFF) ∧ chars = Char.ofNat n :: others ∧
      Chars behind others rest) ∨
    ∃ low final others, (0xD800 ≤ n ∧ n ≤ 0xDBFF) ∧ CodeUnit behind low final ∧
      (0xDC00 ≤ low ∧ low ≤ 0xDFFF) ∧
      chars = Char.ofNat (0x10000 + (n - 0xD800) * 0x400 + (low - 0xDC00)) :: others ∧
      Chars final others rest := by
  cases h with
  | close => cases hunit
  | plain _ hslash =>
    cases hunit
    exact absurd rfl hslash
  | short hletter =>
    cases hunit
    cases hletter
  | unit hunit' hsingle hchars =>
    obtain ⟨rfl, rfl⟩ := hunit.unique hunit'
    exact .inl ⟨_, hsingle, rfl, hchars⟩
  | pair hhigh hrange hlow hlowRange hchars =>
    obtain ⟨rfl, rfl⟩ := hunit.unique hhigh
    exact .inr ⟨_, _, _, hrange, hlow, hlowRange, rfl, hchars⟩

/-- A string is read in one way: each production starts with characters of its own, and a code
unit is told from half a pair by its range. -/
theorem Chars.unique {text chars chars' rest rest' : List Char} (h : Chars text chars rest)
    (h' : Chars text chars' rest') : chars = chars' ∧ rest = rest' := by
  induction h generalizing chars' rest' with
  | close =>
    cases h' with
    | close => exact ⟨rfl, rfl⟩
    | plain hquote => exact absurd rfl hquote
    | unit hunit => cases hunit
    | pair hhigh => cases hhigh
  | plain hquote hslash _ _ ih =>
    cases h' with
    | close => exact absurd rfl hquote
    | plain _ _ _ hchars =>
      obtain ⟨rfl, rfl⟩ := ih hchars
      exact ⟨rfl, rfl⟩
    | short => exact absurd rfl hslash
    | unit hunit =>
      cases hunit
      exact absurd rfl hslash
    | pair hhigh =>
      cases hhigh
      exact absurd rfl hslash
  | short hletter _ ih =>
    cases h' with
    | plain _ hslash => exact absurd rfl hslash
    | short hletter' hchars =>
      obtain ⟨rfl, rfl⟩ := ih hchars
      cases hletter.symm.trans hletter'
      exact ⟨rfl, rfl⟩
    | unit hunit =>
      cases hunit
      cases hletter
    | pair hhigh =>
      cases hhigh
      cases hletter
  | unit hunit hsingle _ ih =>
    rcases h'.of_codeUnit hunit with ⟨_, -, rfl, hchars⟩ | ⟨_, _, _, hrange, -⟩
    · obtain ⟨rfl, rfl⟩ := ih hchars
      exact ⟨rfl, rfl⟩
    · exact absurd ⟨hrange.1, by omega⟩ hsingle
  | pair hhigh hrange hlow _ _ ih =>
    rcases h'.of_codeUnit hhigh with ⟨_, hsingle, -⟩ | ⟨_, _, _, -, hlow', -, rfl, hchars⟩
    · exact absurd ⟨hrange.1, by omega⟩ hsingle
    · obtain ⟨rfl, rfl⟩ := hlow.unique hlow'
      obtain ⟨rfl, rfl⟩ := ih hchars
      exact ⟨rfl, rfl⟩

/-! ## Phrases have one meaning -/

theorem isSpace_of_isDigit {c : Char} (hc : c.isDigit = true) : isSpace c = false := by
  cases hspace : isSpace c with
  | false => rfl
  | true =>
    simp only [isSpace, Bool.or_eq_true, decide_eq_true_eq] at hspace
    rcases hspace with ((rfl | rfl) | rfl) | rfl <;> exact absurd hc (by decide)

/-- An item starts with a character that is no blank and does not end a list of such items. -/
theorem Derives.first {item : Item} {text rest : List Char} {meaning : item.Meaning}
    (h : Derives (.one item) text meaning rest) :
    ∃ c behind, text = c :: behind ∧ isSpace c = false ∧ c ≠ item.closing := by
  cases h with
  | number hnumber =>
    obtain ⟨c, behind, rfl, hc⟩ := hnumber.first
    refine ⟨c, behind, rfl, ?_⟩
    rcases hc with rfl | hdigit
    · decide
    · refine ⟨isSpace_of_isDigit hdigit, ?_⟩
      rintro rfl
      exact absurd hdigit (by decide)
  | _ => exact ⟨_, _, rfl, by decide, by decide⟩

theorem Derives.endsRun {item : Item} {text rest : List Char} {meaning : item.Meaning}
    (h : Derives (.one item) text meaning rest) : EndsRun isSpace text := by
  obtain ⟨c, behind, rfl, hspace, _⟩ := h.first
  exact endsRun_cons hspace behind

theorem isSpace_closing (item : Item) : isSpace item.closing = false := by
  cases item <;> rfl

theorem closing_ne_comma (item : Item) : item.closing ≠ ',' := by
  cases item <;> decide

theorem stops_of_closing {item : Item} {text rest : List Char}
    (h : Blanks text (item.closing :: rest)) : Stops text := by
  refine Stops.of_blanks (stops_cons ?_ rest) h
  cases item <;> decide

theorem stops_of_comma {text rest : List Char} (h : Blanks text (',' :: rest)) : Stops text :=
  Stops.of_blanks (stops_cons (by decide) rest) h

/-- A list of items is not the closing bracket of an empty one. -/
theorem Derives.not_closing {item : Item} {text rest rest' : List Char}
    {meanings : List item.Meaning} (h : Derives (.list item) text meanings rest) :
    ¬ Blanks text (item.closing :: rest') := by
  intro hclosing
  have hstart : ∃ start meaning behind, Blanks text start ∧
      Derives (.one item) start meaning behind := by
    cases h with
    | last hblanks hitem => exact ⟨_, _, _, hblanks, hitem⟩
    | more hblanks hitem => exact ⟨_, _, _, hblanks, hitem⟩
  obtain ⟨start, meaning, behind, hblanks, hitem⟩ := hstart
  obtain ⟨c, _, rfl, hspace, hc⟩ := hitem.first
  exact hc (hblanks.unique_cons hclosing hspace (isSpace_closing item)).1

/-- A phrase at the front of a text has one meaning and one end, as long as what follows cannot
carry a number on. -/
theorem Derives.unique {phrase : Phrase} {text rest rest' : List Char}
    {meaning meaning' : phrase.Meaning} (h : Derives phrase text meaning rest)
    (h' : Derives phrase text meaning' rest') (hrest : Stops rest) (hrest' : Stops rest') :
    meaning = meaning' ∧ rest = rest' := by
  -- on the derivation; the mark behind an item ends a number there, so that the hypotheses on
  -- the rests hold again for the items of a list
  induction h generalizing rest' with
  | null =>
    cases h' with
    | null => exact ⟨rfl, rfl⟩
    | number hnumber => exact absurd hnumber.first_cons (by decide)
  | isTrue =>
    cases h' with
    | isTrue => exact ⟨rfl, rfl⟩
    | number hnumber => exact absurd hnumber.first_cons (by decide)
  | isFalse =>
    cases h' with
    | isFalse => exact ⟨rfl, rfl⟩
    | number hnumber => exact absurd hnumber.first_cons (by decide)
  | number hnumber =>
    cases h' with
    | number hnumber' =>
      obtain ⟨rfl, rfl, rfl⟩ := hnumber.unique hnumber' hrest hrest'
      exact ⟨rfl, rfl⟩
    | _ => exact absurd hnumber.first_cons (by decide)
  | string hchars =>
    cases h' with
    | string hchars' =>
      obtain ⟨rfl, rfl⟩ := hchars.unique hchars'
      exact ⟨rfl, rfl⟩
    | number hnumber => exact absurd hnumber.first_cons (by decide)
  | emptyArray hclosing =>
    cases h' with
    | emptyArray hclosing' => exact ⟨rfl, (hclosing.unique_cons hclosing' rfl rfl).2⟩
    | array hitems => exact absurd hclosing hitems.not_closing
    | number hnumber => exact absurd hnumber.first_cons (by decide)
  | array hitems ih =>
    cases h' with
    | emptyArray hclosing => exact absurd hclosing hitems.not_closing
    | array hitems' =>
      obtain ⟨rfl, rfl⟩ := ih hitems' hrest hrest'
      exact ⟨rfl, rfl⟩
    | number hnumber => exact absurd hnumber.first_cons (by decide)
  | emptyObject hclosing =>
    cases h' with
    | emptyObject hclosing' => exact ⟨rfl, (hclosing.unique_cons hclosing' rfl rfl).2⟩
    | object hmembers => exact absurd hclosing hmembers.not_closing
    | number hnumber => exact absurd hnumber.first_cons (by decide)
  | object hmembers ih =>
    cases h' with
    | emptyObject hclosing => exact absurd hclosing hmembers.not_closing
    | object hmembers' =>
      obtain ⟨rfl, rfl⟩ := ih hmembers' hrest hrest'
      exact ⟨rfl, rfl⟩
    | number hnumber => exact absurd hnumber.first_cons (by decide)
  | member hkey hcolon hstart hvalue ih =>
    cases h' with
    | member hkey' hcolon' hstart' hvalue' =>
      obtain ⟨rfl, rfl⟩ := hkey.unique hkey'
      obtain ⟨_, rfl⟩ := hcolon.unique_cons hcolon' rfl rfl
      obtain rfl := hstart.unique hstart' hvalue.endsRun hvalue'.endsRun
      obtain ⟨rfl, rfl⟩ := ih hvalue' hrest hrest'
      exact ⟨rfl, rfl⟩
  | last hstart hitem hbehind ih =>
    cases h' with
    | last hstart' hitem' hbehind' =>
      obtain rfl := hstart.unique hstart' hitem.endsRun hitem'.endsRun
      obtain ⟨rfl, rfl⟩ := ih hitem' (stops_of_closing hbehind) (stops_of_closing hbehind')
      exact ⟨rfl, (hbehind.unique_cons hbehind' (isSpace_closing _) (isSpace_closing _)).2⟩
    | more hstart' hitem' hbehind' _ =>
      obtain rfl := hstart.unique hstart' hitem.endsRun hitem'.endsRun
      obtain ⟨rfl, rfl⟩ := ih hitem' (stops_of_closing hbehind) (stops_of_comma hbehind')
      exact absurd (hbehind.unique_cons hbehind' (isSpace_closing _) rfl).1 (closing_ne_comma _)
  | more hstart hitem hbehind _ ihItem ihItems =>
    cases h' with
    | last hstart' hitem' hbehind' =>
      obtain rfl := hstart.unique hstart' hitem.endsRun hitem'.endsRun
      obtain ⟨rfl, rfl⟩ := ihItem hitem' (stops_of_comma hbehind) (stops_of_closing hbehind')
      exact absurd (hbehind'.unique_cons hbehind (isSpace_closing _) rfl).1 (closing_ne_comma _)
    | more hstart' hitem' hbehind' hitems' =>
      obtain rfl := hstart.unique hstart' hitem.endsRun hitem'.endsRun
      obtain ⟨rfl, rfl⟩ := ihItem hitem' (stops_of_comma hbehind) (stops_of_comma hbehind')
      obtain ⟨_, rfl⟩ := hbehind.unique_cons hbehind' rfl rfl
      obtain ⟨rfl, rfl⟩ := ihItems hitems' hrest hrest'
      exact ⟨rfl, rfl⟩

/-- A document has one meaning. -/
theorem denotes_unique {text : List Char} {tree tree' : Tree} (h : Denotes text tree)
    (h' : Denotes text tree') : tree = tree' := by
  obtain ⟨start, behind, hstart, htree, hbehind⟩ := h
  obtain ⟨start', behind', hstart', htree', hbehind'⟩ := h'
  obtain rfl := hstart.unique hstart' htree.endsRun htree'.endsRun
  exact (htree.unique htree' (stops_nil.of_blanks hbehind) (stops_nil.of_blanks hbehind')).1

end BraceBalance.Json
