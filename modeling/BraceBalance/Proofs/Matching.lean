/-
  Matching braces, apart from where they come from.

  A word of placed braces leaves some closing braces and some opening braces without partner,
  and every unmatched closing brace stands before every unmatched opening one.  What two words
  leave together is determined by what each leaves alone: the opening braces of the first
  meet the closing braces of the second, the most recent one first (`ofWord_append`).  The
  counting conditions for a single brace to stay unmatched follow from that law.
-/

set_option autoImplicit false

namespace BraceBalance

/-- The two braces. -/
inductive Brace where
  | opening
  | closing
  deriving DecidableEq, Repr

/-- What a word of placed braces leaves without partner, in the order of the word. -/
structure Unmatched (α : Type) where
  /-- The places of closing braces without partner. -/
  extra : List α
  /-- The places of opening braces without partner. -/
  waiting : List α
  deriving DecidableEq, Repr

namespace Unmatched

variable {α β : Type}

/-- Nothing is unmatched. -/
def empty : Unmatched α := ⟨[], []⟩

/-- One more brace: an opening one waits, a closing one takes the most recent waiting one or
has no partner. -/
def step (found : Unmatched α) (brace : Brace × α) : Unmatched α :=
  match brace.1 with
  | .opening => { found with waiting := found.waiting ++ [brace.2] }
  | .closing =>
    if found.waiting = [] then { found with extra := found.extra ++ [brace.2] }
    else { found with waiting := found.waiting.dropLast }

/-- What a word leaves without partner. -/
def ofWord (word : List (Brace × α)) : Unmatched α := word.foldl step empty

/-- What two words leave together. -/
def join (left right : Unmatched α) : Unmatched α :=
  let pairs := min left.waiting.length right.extra.length
  ⟨left.extra ++ right.extra.drop pairs,
    left.waiting.take (left.waiting.length - pairs) ++ right.waiting⟩

/-- The same findings at other places. -/
def map (f : α → β) (found : Unmatched α) : Unmatched β :=
  ⟨found.extra.map f, found.waiting.map f⟩

theorem eq_empty_iff {found : Unmatched α} :
    found = empty ↔ found.extra = [] ∧ found.waiting = [] := by
  cases found
  simp [empty]

/-! ## One step -/

@[simp] theorem step_opening (found : Unmatched α) (place : α) :
    found.step (.opening, place) = ⟨found.extra, found.waiting ++ [place]⟩ := rfl

theorem step_closing_extra {found : Unmatched α} (h : found.waiting = []) (place : α) :
    found.step (.closing, place) = ⟨found.extra ++ [place], found.waiting⟩ :=
  if_pos h

theorem step_closing_pair {found : Unmatched α} (h : found.waiting ≠ []) (place : α) :
    found.step (.closing, place) = ⟨found.extra, found.waiting.dropLast⟩ :=
  if_neg h

@[simp] theorem ofWord_nil : ofWord ([] : List (Brace × α)) = empty := rfl

theorem ofWord_concat (word : List (Brace × α)) (brace : Brace × α) :
    ofWord (word ++ [brace]) = (ofWord word).step brace := by
  rw [ofWord, List.foldl_append]
  rfl

theorem map_step (f : α → β) (found : Unmatched α) (brace : Brace) (place : α) :
    (found.step (brace, place)).map f = (found.map f).step (brace, f place) := by
  cases brace with
  | opening => simp [map]
  | closing =>
    by_cases h : found.waiting = []
    · rw [step_closing_extra h, step_closing_extra (by simp [map, h])]
      simp [map]
    · rw [step_closing_pair h, step_closing_pair (by simpa [map] using h)]
      simp [map]

/-- Moving the braces of a word moves what it leaves. -/
theorem map_ofWord (f : α → β) (word : List (Brace × α)) :
    (ofWord word).map f = ofWord (word.map fun brace => (brace.1, f brace.2)) := by
  suffices h : ∀ found : Unmatched α,
      (word.foldl step found).map f =
        (word.map fun brace => (brace.1, f brace.2)).foldl step (found.map f) from h empty
  induction word with
  | nil => intro found; rfl
  | cons brace word ih =>
    intro found
    rw [List.foldl_cons, ih, List.map_cons, List.foldl_cons, map_step]

/-! ## Two words -/

@[simp] theorem join_empty (found : Unmatched α) : found.join empty = found := by
  simp [join, empty]

/-- All closing braces of the second word find a partner in the first. -/
theorem join_of_le {left right : Unmatched α} (h : right.extra.length ≤ left.waiting.length) :
    left.join right =
      ⟨left.extra, left.waiting.take (left.waiting.length - right.extra.length) ++
        right.waiting⟩ := by
  rw [join, Nat.min_eq_right h, List.drop_length, List.append_nil]

/-- All opening braces of the first word find a partner in the second. -/
theorem join_of_ge {left right : Unmatched α} (h : left.waiting.length ≤ right.extra.length) :
    left.join right =
      ⟨left.extra ++ right.extra.drop left.waiting.length, right.waiting⟩ := by
  rw [join, Nat.min_eq_left h, Nat.sub_self, List.take_zero, List.nil_append]

@[simp] theorem empty_join (found : Unmatched α) : empty.join found = found := by
  rw [join_of_ge (by simp [empty])]
  simp [empty]

/-- The step that associativity needs: a brace behind two words is a brace of the second. -/
theorem join_step (left right : Unmatched α) (brace : Brace × α) :
    (left.join right).step brace = left.join (right.step brace) := by
  obtain ⟨brace, place⟩ := brace
  cases brace with
  | opening => simp [join]
  | closing =>
    by_cases hright : right.waiting = []
    · rw [step_closing_extra hright]
      rcases Nat.lt_or_ge right.extra.length left.waiting.length with hlt | hge
      · -- The brace takes the most recent one that still waits on the left.
        have hne : (left.join right).waiting ≠ [] := by
          intro hnil
          have hlen := congrArg List.length hnil
          rw [join_of_le (Nat.le_of_lt hlt)] at hlen
          simp only [hright, List.append_nil, List.length_take, List.length_nil] at hlen
          omega
        have hlt' : (right.extra ++ [place]).length ≤ left.waiting.length := by
          rw [List.length_append]
          exact hlt
        have htake : min (min (left.waiting.length - right.extra.length) left.waiting.length - 1)
            (left.waiting.length - right.extra.length) =
            left.waiting.length - (right.extra.length + 1) := by omega
        rw [step_closing_pair hne, join_of_le (Nat.le_of_lt hlt), join_of_le hlt']
        simp only [hright, List.append_nil, List.dropLast_eq_take, List.take_take,
          List.length_take, List.length_append, List.length_singleton, htake]
      · have hnil : (left.join right).waiting = [] := by
          rw [join_of_ge hge]
          exact hright
        rw [step_closing_extra hnil, join_of_ge hge, join_of_ge (by simp; omega)]
        simp only [List.drop_append_of_le_length hge, List.append_assoc]
    · have hne : (left.join right).waiting ≠ [] := by
        simp [join, hright]
      rw [step_closing_pair hne, step_closing_pair hright]
      simp only [join, List.dropLast_append_of_ne_nil hright]

/-- What two words leave together is what the first leaves met by what the second leaves. -/
theorem ofWord_append (left right : List (Brace × α)) :
    ofWord (left ++ right) = (ofWord left).join (ofWord right) := by
  suffices h : ∀ middle : List (Brace × α), ∀ found : Unmatched α,
      right.foldl step (found.join (ofWord middle)) = found.join (ofWord (middle ++ right)) by
    have hleft := h [] (ofWord left)
    rw [ofWord_nil, join_empty, List.nil_append] at hleft
    rw [← hleft, ofWord, List.foldl_append]
    rfl
  induction right with
  | nil => intro middle found; simp
  | cons brace right ih =>
    intro middle found
    rw [List.foldl_cons, join_step, ← ofWord_concat, ih, List.append_assoc]
    rfl

theorem ofWord_opening_cons (place : α) (word : List (Brace × α)) :
    ofWord ((.opening, place) :: word) =
      ⟨(ofWord word).extra.drop 1,
        (if (ofWord word).extra = [] then [place] else []) ++ (ofWord word).waiting⟩ := by
  have happend : ofWord ((.opening, place) :: word) =
      (⟨[], [place]⟩ : Unmatched α).join (ofWord word) := ofWord_append [(.opening, place)] word
  rw [happend]
  cases hextra : (ofWord word).extra with
  | nil => rw [join_of_le (by simp [hextra])]; simp [hextra]
  | cons first extra => rw [join_of_ge (by simp [hextra])]; simp [hextra]

theorem ofWord_closing_cons (place : α) (word : List (Brace × α)) :
    ofWord ((.closing, place) :: word) =
      ⟨place :: (ofWord word).extra, (ofWord word).waiting⟩ := by
  have happend : ofWord ((.closing, place) :: word) =
      (⟨[place], []⟩ : Unmatched α).join (ofWord word) := ofWord_append [(.closing, place)] word
  rw [happend, join_of_ge (by simp)]
  simp

/-! ## Counting -/

/-- How many opening braces a word holds. -/
def opens (word : List (Brace × α)) : Nat := word.countP fun brace => brace.1 = .opening

/-- How many closing braces a word holds. -/
def closes (word : List (Brace × α)) : Nat := word.countP fun brace => brace.1 = .closing

@[simp] theorem opens_nil : opens ([] : List (Brace × α)) = 0 := rfl

@[simp] theorem closes_nil : closes ([] : List (Brace × α)) = 0 := rfl

@[simp] theorem opens_opening_cons (place : α) (word : List (Brace × α)) :
    opens ((.opening, place) :: word) = opens word + 1 := by simp [opens]

@[simp] theorem opens_closing_cons (place : α) (word : List (Brace × α)) :
    opens ((.closing, place) :: word) = opens word := by simp [opens]

@[simp] theorem closes_opening_cons (place : α) (word : List (Brace × α)) :
    closes ((.opening, place) :: word) = closes word := by simp [closes]

@[simp] theorem closes_closing_cons (place : α) (word : List (Brace × α)) :
    closes ((.closing, place) :: word) = closes word + 1 := by simp [closes]

/-- Braces that find a partner do so in pairs. -/
theorem opens_add_extra (word : List (Brace × α)) :
    opens word + (ofWord word).extra.length = closes word + (ofWord word).waiting.length := by
  induction word with
  | nil => rfl
  | cons brace word ih =>
    obtain ⟨brace, place⟩ := brace
    cases brace with
    | opening =>
      rw [ofWord_opening_cons, opens_opening_cons, closes_opening_cons]
      cases hextra : (ofWord word).extra with
      | nil =>
        rw [hextra] at ih
        simp only [List.length_nil, List.drop_nil, if_true, List.singleton_append,
          List.length_cons] at ih ⊢
        omega
      | cons first extra =>
        rw [hextra] at ih
        simp only [List.length_cons, List.drop_succ_cons, List.drop_zero, reduceCtorEq, if_false,
          List.nil_append] at ih ⊢
        omega
    | closing =>
      rw [ofWord_closing_cons, opens_closing_cons, closes_closing_cons]
      simp only [List.length_cons]
      omega

/-- No opening brace waits exactly if no end of the word holds more opening braces than
closing ones. -/
theorem waiting_eq_nil_iff {word : List (Brace × α)} :
    (ofWord word).waiting = [] ↔ ∀ back, back <:+ word → opens back ≤ closes back := by
  induction word with
  | nil =>
    constructor
    · intro _ back hback
      rw [List.suffix_nil.mp hback]
      simp
    · intro _
      rfl
  | cons brace word ih =>
    obtain ⟨brace, place⟩ := brace
    have hbalance := opens_add_extra word
    simp only [List.suffix_cons_iff, forall_eq_or_imp, ← ih]
    cases brace with
    | opening =>
      rw [ofWord_opening_cons, opens_opening_cons, closes_opening_cons]
      simp only [List.append_eq_nil_iff]
      constructor
      · intro h
        obtain ⟨hplace, hwaiting⟩ := h
        have hextra : (ofWord word).extra ≠ [] := by
          intro hnil
          rw [if_pos hnil] at hplace
          cases hplace
        have hpos := List.length_pos_iff.mpr hextra
        rw [hwaiting, List.length_nil] at hbalance
        exact ⟨by omega, hwaiting⟩
      · intro h
        obtain ⟨hcount, hwaiting⟩ := h
        have hextra : (ofWord word).extra ≠ [] := by
          intro hnil
          rw [hnil, hwaiting] at hbalance
          simp only [List.length_nil] at hbalance
          omega
        exact ⟨if_neg hextra, hwaiting⟩
    | closing =>
      rw [ofWord_closing_cons, opens_closing_cons, closes_closing_cons]
      constructor
      · intro hwaiting
        have hnil : (ofWord word).waiting = [] := hwaiting
        rw [hnil, List.length_nil] at hbalance
        exact ⟨by omega, hnil⟩
      · rintro ⟨-, hwaiting⟩
        exact hwaiting

theorem forall_prefix_cons {brace : Brace × α} {word : List (Brace × α)}
    {property : List (Brace × α) → Prop} :
    (∀ front, front <+: brace :: word → property front) ↔
      property [] ∧ ∀ front, front <+: word → property (brace :: front) := by
  constructor
  · intro h
    exact ⟨h [] List.nil_prefix,
      fun front hfront => h _ (List.prefix_cons_iff.mpr (Or.inr ⟨front, rfl, hfront⟩))⟩
  · intro h front hfront
    rcases List.prefix_cons_iff.mp hfront with rfl | ⟨rest, rfl, hrest⟩
    · exact h.1
    · exact h.2 rest hrest

/-- At most `slack` closing braces are extra exactly if no start of the word holds more
closing braces than opening ones and `slack` together. -/
theorem length_extra_le_iff {word : List (Brace × α)} {slack : Nat} :
    (ofWord word).extra.length ≤ slack ↔
      ∀ front, front <+: word → closes front ≤ opens front + slack := by
  induction word generalizing slack with
  | nil =>
    constructor
    · intro _ front hfront
      rw [List.prefix_nil.mp hfront]
      simp
    · intro _
      exact Nat.zero_le _
  | cons brace word ih =>
    obtain ⟨brace, place⟩ := brace
    rw [forall_prefix_cons]
    cases brace with
    | opening =>
      -- The brace at the front takes in one extra closing brace more.
      have hlen : (ofWord ((.opening, place) :: word)).extra.length ≤ slack ↔
          (ofWord word).extra.length ≤ slack + 1 := by
        rw [ofWord_opening_cons]
        simp only [List.length_drop]
        omega
      rw [hlen, ih]
      simp only [opens_opening_cons, closes_opening_cons, opens_nil, closes_nil, Nat.zero_le,
        true_and, Nat.add_assoc, Nat.add_comm 1]
    | closing =>
      have hlen : (ofWord ((.closing, place) :: word)).extra.length =
          (ofWord word).extra.length + 1 := by
        rw [ofWord_closing_cons]
        rfl
      rw [hlen]
      cases slack with
      | zero =>
        constructor
        · intro h
          cases h
        · intro h
          have hfirst := h.2 [] List.nil_prefix
          rw [closes_closing_cons, opens_closing_cons] at hfirst
          cases hfirst
      | succ slack =>
        rw [Nat.succ_le_succ_iff, ih]
        simp only [opens_closing_cons, closes_closing_cons, opens_nil, closes_nil, Nat.zero_le,
          true_and, ← Nat.add_assoc, Nat.add_le_add_iff_right]

/-- No closing brace is extra exactly if no start of the word holds more closing braces than
opening ones. -/
theorem extra_eq_nil_iff {word : List (Brace × α)} :
    (ofWord word).extra = [] ↔ ∀ front, front <+: word → closes front ≤ opens front := by
  rw [← List.length_eq_zero_iff, ← Nat.le_zero, length_extra_le_iff]
  rfl

end Unmatched

end BraceBalance
