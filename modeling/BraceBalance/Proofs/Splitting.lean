/-
  Cutting lines as a split function, and a reader that does not trust its split function.

  A split function is shown the bytes in hand and answers how many of them are used up and
  which token they make.  A reader for arbitrary split functions has to give up on answers
  that move backwards or beyond the bytes in hand, and on tokens that never use anything up.
  The answers of `Cut.first?` are none of these, and stay what they are when more bytes come
  (`Cut.first?_stable`), so `Reader.advance`, which checks nothing, is the guarded reader.
-/
import BraceBalance.Proofs.Delivery

set_option autoImplicit false

namespace BraceBalance

open Newline (bytes)

/-! ## Answers -/

/-- The answer of a split function: how many bytes are used up, and the token they make, if
they make one. -/
structure Answer where
  advance : Int
  token : Option Bytes
  deriving DecidableEq, Repr

/-- Functions of the bytes in hand and of whether no more bytes will come. -/
abbrev Splitter := Bytes → Bool → Answer

namespace Cut

/-- A cut as an answer; where nothing is cut, nothing is used up. -/
def answer : Option Cut → Answer
  | none => ⟨0, none⟩
  | some cut => ⟨cut.width, some cut.line⟩

/-- Cutting lines as a split function. -/
def split : Splitter := fun data atEnd => answer (first? data atEnd)

theorem split_of_first? {data : Bytes} {atEnd : Bool} {cut : Cut}
    (h : first? data atEnd = some cut) : split data atEnd = ⟨cut.width, some cut.line⟩ := by
  rw [split, h, answer]

theorem split_of_first?_eq_none {data : Bytes} {atEnd : Bool} (h : first? data atEnd = none) :
    split data atEnd = ⟨0, none⟩ := by
  rw [split, h, answer]

theorem token_split_eq_none_iff {data : Bytes} {atEnd : Bool} :
    (split data atEnd).token = none ↔ first? data atEnd = none := by
  cases h : first? data atEnd with
  | none => simp [split_of_first?_eq_none h]
  | some cut => simp [split_of_first? h]

theorem first?_of_token {data : Bytes} {atEnd : Bool} {token : Bytes}
    (h : (split data atEnd).token = some token) :
    first? data atEnd = some ⟨(split data atEnd).advance.toNat, token⟩ := by
  cases hcut : first? data atEnd with
  | none =>
    rw [split_of_first?_eq_none hcut] at h
    cases h
  | some cut =>
    rw [split_of_first? hcut] at h ⊢
    cases h
    rfl

/-! ## The line of a cut -/

/-- The token that bytes used up make in front of those that are left: themselves, if they
hold no terminator and nothing is left, and otherwise the line with its terminator, taken
whole, as one LF. -/
inductive Makes : Bytes → Bytes → Bytes → Prop where
  | rest {used : Bytes} : bytes.Inner used → Makes used [] used
  | terminated {line left : Bytes} {terminator : Terminator} : bytes.Inner line →
      bytes.Complete terminator left →
      Makes (line ++ bytes.chars terminator) left (line ++ [lf])

theorem makes_of_first? {data : Bytes} {atEnd : Bool} {cut : Cut}
    (h : first? data atEnd = some cut) :
    Makes (data.take cut.width) (data.drop cut.width) cut.line := by
  rcases first?_cases h with
    ⟨-, -, hdata, rfl⟩ | ⟨line, terminator, rest, hline, hcomplete, -, rfl, rfl⟩
  · simp only [List.take_length, List.drop_length]
    exact .rest hdata
  · have htake : (line ++ (bytes.chars terminator ++ rest)).take
        (line.length + (bytes.chars terminator).length) = line ++ bytes.chars terminator := by
      rw [← List.append_assoc, ← List.length_append, List.take_left]
    rw [htake, drop_terminated]
    exact .terminated hline hcomplete

/-- A token holds no CR, and an LF at most in last place. -/
theorem Makes.terminator_last {used left token : Bytes} (h : Makes used left token) :
    cr ∉ token ∧ lf ∉ token.dropLast := by
  cases h with
  | rest hused =>
    refine ⟨fun hmem => (hused _ hmem).1 rfl, fun hmem => ?_⟩
    exact (hused _ ((List.dropLast_sublist _).subset hmem)).2 rfl
  | @terminated line _ _ hline _ =>
    have hcr : cr ∉ line := fun hmem => (hline _ hmem).1 rfl
    have hne : cr ≠ lf := bytes.cr_ne_lf
    refine ⟨by simp [hcr, hne], ?_⟩
    rw [List.dropLast_concat]
    exact fun hmem => (hline _ hmem).2 rfl

theorem line_ne_nil_of_first? {data : Bytes} {atEnd : Bool} {cut : Cut}
    (h : first? data atEnd = some cut) : cut.line ≠ [] := by
  rcases first?_cases h with ⟨-, hne, -, rfl⟩ | ⟨line, -, -, -, -, -, -, rfl⟩
  · exact hne
  · exact List.append_ne_nil_of_right_ne_nil line (List.cons_ne_nil lf [])

/-- An answer stays within the bytes in hand, and uses some of them up exactly for a token. -/
theorem split_progress (data : Bytes) (atEnd : Bool) :
    0 ≤ (split data atEnd).advance ∧ (split data atEnd).advance ≤ data.length ∧
      ((split data atEnd).token ≠ none ↔ 0 < (split data atEnd).advance) ∧
      (split data atEnd).token ≠ some [] := by
  cases hcut : first? data atEnd with
  | none =>
    rw [split_of_first?_eq_none hcut]
    simp
  | some cut =>
    have hwidth := width_of_first? hcut
    have hline := line_ne_nil_of_first? hcut
    simp only [split_of_first? hcut, ne_eq, reduceCtorEq, not_false_eq_true, true_iff,
      Option.some.injEq]
    exact ⟨by omega, by omega, by omega, hline⟩

/-! ## More bytes -/

/-- While more may come, nothing is cut exactly if there is no terminator, or the first one
may be half of one. -/
theorem first?_eq_none_iff {data : Bytes} :
    first? data false = none ↔
      bytes.Inner data ∨ ∃ line, bytes.Inner line ∧ data = line ++ [cr] := by
  constructor
  · intro h
    rcases bytes.inner_or_terminated data with
      hdata | ⟨line, terminator, rest, hline, hcomplete, rfl⟩
    · exact Or.inl hdata
    · rw [first?_terminated hline hcomplete] at h
      split at h
      · rename_i hlast
        obtain ⟨-, rfl, rfl⟩ := hlast
        exact Or.inr ⟨line, hline, rfl⟩
      · cases h
  · intro h
    rcases h with hdata | ⟨line, hline, rfl⟩
    · rw [first?_inner hdata, if_neg (by simp)]
    · have hcomplete : bytes.Complete .cr [] := by simp [Newline.Complete]
      have hcut := first?_terminated hline hcomplete false
      rwa [if_pos ⟨rfl, rfl, rfl⟩] at hcut

/-- A cut made while more may come is made whatever comes. -/
theorem first?_stable {data : Bytes} {cut : Cut} (h : first? data false = some cut)
    (more : Bytes) (atEnd : Bool) : first? (data ++ more) atEnd = some cut := by
  rcases first?_cases h with
    ⟨hfalse, -⟩ | ⟨line, terminator, rest, hline, hcomplete, hlast, rfl, rfl⟩
  · cases hfalse
  · -- Only a CR in last place waits for more, and then nothing would have been cut.
    have hbehind : ¬ (atEnd = false ∧ terminator = .cr ∧ rest ++ more = []) := by
      intro hwaits
      exact hlast rfl ⟨hwaits.2.1, (List.append_eq_nil_iff.mp hwaits.2.2).1⟩
    rw [List.append_assoc, List.append_assoc,
      first?_terminated hline (hcomplete.append (hlast rfl) more), if_neg hbehind]

end Cut

/-! ## A reader for every split function -/

/-- Why a split function cannot be followed. -/
inductive Misuse where
  /-- It moves backwards. -/
  | negativeAdvance
  /-- It moves beyond the bytes in hand. -/
  | advanceTooFar
  /-- At the end it goes on making tokens without using anything up. -/
  | idleTokens
  deriving DecidableEq, Repr

/-- A reader that checks what its split function answers. -/
structure Guarded where
  reader : Reader
  /-- Tokens in a row that used nothing up, since the stream has ended. -/
  idle : Nat
  deriving DecidableEq, Repr

namespace Guarded

/-- Asks a split function, unless nothing is in hand and more may come. -/
def ask (split : Splitter) (reader : Reader) : Answer :=
  if reader.buffer = [] ∧ reader.atEnd = false then ⟨0, none⟩
  else split reader.buffer reader.atEnd

/-- Hands a token out, if there were not too many before it that used nothing up. -/
def handOut (state : Guarded) (cut : Cut) : Except Misuse (Bool × Guarded) :=
  if state.reader.atEnd = false ∨ 0 < cut.width then .ok (true, ⟨state.reader.deliver cut, 0⟩)
  else if state.idle < Source.maxEmptyReads then
    .ok (true, ⟨state.reader.deliver cut, state.idle + 1⟩)
  else .error .idleTokens

/-- Moves to the next token and tells whether there was one. -/
def advance (split : Splitter) (state : Guarded) : Except Misuse (Bool × Guarded) :=
  let answer := ask split state.reader
  if answer.advance < 0 then .error .negativeAdvance
  else if state.reader.buffer.length < answer.advance then .error .advanceTooFar
  else
    match answer.token with
    | some token => state.handOut ⟨answer.advance.toNat, token⟩
    | none =>
      match _h : state.reader.input with
      | .ended _ => .ok (false, { state with reader.buffer := [] })
      | .running source =>
        let left := state.reader.buffer.drop answer.advance.toNat
        let delivery := source.pull
        let refilled := { state.reader with buffer := left ++ delivery.1, input := delivery.2 }
        -- Bytes that come before the end count as progress.
        advance split ⟨refilled, if refilled.atEnd then state.idle else 0⟩
termination_by state.reader.input.remaining
decreasing_by
  simp only [_h]
  exact Source.pull_remaining source

/-- The lines of up to a number of calls and the reader behind the last, or `none` if no call
among them found the end. -/
def collect (split : Splitter) : Nat → Guarded → Except Misuse (Option (List Line × Reader))
  | 0, _ => .ok none
  | calls + 1, state =>
    match state.advance split with
    | .error misuse => .error misuse
    | .ok (false, next) => .ok (some ([], next.reader))
    | .ok (true, next) =>
      (collect split calls next).map fun found =>
        found.map fun behind => (next.reader.current :: behind.1, behind.2)

theorem ask_split (reader : Reader) :
    ask Cut.split reader = Cut.split reader.buffer reader.atEnd := by
  rw [ask]
  split
  · rename_i h
    rw [h.1, h.2]
    rfl
  · rfl

/-- Where lines are cut, the checks find nothing to object to. -/
theorem advance_split (reader : Reader) :
    advance Cut.split ⟨reader, 0⟩ = .ok (reader.advance.1, ⟨reader.advance.2, 0⟩) := by
  -- On the reads still to be made, along which both readers recur.
  induction hn : reader.input.remaining using Nat.strongRecOn generalizing reader with
  | _ n ih =>
    subst hn
    obtain ⟨buffer, input, current⟩ := reader
    rw [advance, ask_split, Reader.advance]
    cases hcut : Cut.first? buffer (Reader.mk buffer input current).atEnd with
    | some cut =>
      have hwidth := Cut.width_of_first? hcut
      simp only [Cut.split_of_first? hcut, Int.toNat_natCast]
      rw [if_neg (by omega), if_neg (by omega), handOut, if_pos (Or.inr hwidth.1)]
    | none =>
      simp only [Cut.split_of_first?_eq_none hcut]
      rw [if_neg (by omega), if_neg (by omega)]
      cases input with
      | ended fault => rfl
      | running source =>
        have hrefilled := ih _ source.pull_remaining
          ⟨buffer ++ source.pull.1, source.pull.2, current⟩ rfl
        simpa using hrefilled

/-- Within as many calls as there are bytes, and one more, the reader of lines has found the
end and has handed out every line. -/
theorem collect_split {reader : Reader} {calls : Nat} (h : reader.pending < calls) :
    collect Cut.split calls ⟨reader, 0⟩ = .ok (some reader.lines) := by
  induction calls generalizing reader with
  | zero => omega
  | succ calls ih =>
    rw [collect, advance_split, Reader.lines_eq]
    cases hadvance : reader.advance with
    | mk more next =>
      cases more with
      | false => rfl
      | true =>
        have hless := Reader.pending_of_advance hadvance
        simp only
        rw [ih (by omega)]
        rfl

end Guarded

open Cut (split Makes)

/-- Cutting lines is a sound and stable split function.  It uses up no more than the bytes in
hand, and something exactly if it makes a token, which is never empty; at the end it uses
something up unless nothing is left.  The token is the line of the bytes used up, with an LF
only in last place.  While more may come, it makes none exactly if no line can be told to
end, and a token that it makes is made whatever comes.  So a reader that guards against its
split function never has to, and finds the end of every stream. -/
theorem split_is_sound_and_stable (data : Bytes) (atEnd : Bool) :
    let answer := split data atEnd
    0 ≤ answer.advance ∧ answer.advance ≤ data.length ∧
      (answer.token ≠ none ↔ 0 < answer.advance) ∧ answer.token ≠ some [] ∧
      (atEnd = true → data ≠ [] → 0 < answer.advance) ∧
      (∀ token, answer.token = some token →
        Makes (data.take answer.advance.toNat) (data.drop answer.advance.toNat) token ∧
          cr ∉ token ∧ lf ∉ token.dropLast) ∧
      (atEnd = false → (answer.token = none ↔
        bytes.Inner data ∨ ∃ line, bytes.Inner line ∧ data = line ++ [cr])) ∧
      (atEnd = false → answer.token ≠ none →
        ∀ more later, split (data ++ more) later = answer) ∧
      ∀ (source : Source) (calls : Nat), (Reader.ofSource source).pending < calls →
        Guarded.collect split calls ⟨Reader.ofSource source, 0⟩ =
          .ok (some (Reader.ofSource source).lines) := by
  intro answer
  obtain ⟨hnonneg, hle, htoken, hne⟩ := Cut.split_progress data atEnd
  refine ⟨hnonneg, hle, htoken, hne, ?_, ?_, ?_, ?_, ?_⟩
  · intro hat hdata
    subst hat
    rw [← htoken, ne_eq, Cut.token_split_eq_none_iff]
    exact fun hcut => hdata (Cut.eq_nil_of_first?_eq_none hcut)
  · intro token hsome
    have hmakes := Cut.makes_of_first? (Cut.first?_of_token hsome)
    exact ⟨hmakes, hmakes.terminator_last⟩
  · intro hat
    subst hat
    rw [Cut.token_split_eq_none_iff]
    exact Cut.first?_eq_none_iff
  · intro hat hsome more later
    subst hat
    obtain ⟨token, hsome⟩ := Option.ne_none_iff_exists'.mp hsome
    have hcut := Cut.first?_of_token hsome
    rw [Cut.split_of_first? (Cut.first?_stable hcut more later)]
    exact (Cut.split_of_first? hcut).symm
  · intro source calls hcalls
    exact Guarded.collect_split hcalls

/-- A lone CR, which the byte behind it tells from a CR LF, one in last place, which only the
end tells, and a CR LF that comes in two reads.  A split function that goes on making empty
tokens is given up on. -/
theorem split_is_sound_and_stable_lone_cr :
    let data : Bytes := [0x61, cr, 0x62]
    let source := Source.ofReads [[0x61, cr], [lf, 0x7B]] none
    split data false = ⟨2, some [0x61, lf]⟩ ∧ Makes [0x61, cr] [0x62] [0x61, lf] ∧
      (∀ more later, split (data ++ more) later = split data false) ∧
      (split [0x61, cr] false).token = none ∧ 0 < (split [0x61, cr] true).advance ∧
      (Reader.ofSource source).pending < 5 ∧
      Guarded.collect split 5 ⟨Reader.ofSource source, 0⟩ =
        .ok (some (Reader.ofSource source).lines) ∧
      (Guarded.collect (fun _ _ => ⟨0, some []⟩) 101
        ⟨Reader.ofSource (.ofContent []), 0⟩).isOk = false := by
  intro data source
  have hsplit : split data false = ⟨2, some [0x61, lf]⟩ := by decide
  have hline : bytes.Inner [0x61] := by simp [Newline.Inner, bytes, cr, lf]
  have hpending : (Reader.ofSource source).pending < 5 := by decide
  obtain ⟨-, -, -, -, -, hmakes, -, hstable, hcollect⟩ := split_is_sound_and_stable data false
  obtain ⟨-, -, -, -, -, -, hnone, -⟩ := split_is_sound_and_stable [0x61, cr] false
  obtain ⟨-, -, -, -, hend, -⟩ := split_is_sound_and_stable [0x61, cr] true
  refine ⟨hsplit, (hmakes _ (by rw [hsplit])).1, hstable rfl (by rw [hsplit]; simp), ?_,
    hend rfl (List.cons_ne_nil _ _), hpending, hcollect source 5 hpending, by decide +kernel⟩
  exact (hnone rfl).mpr (Or.inr ⟨[0x61], hline, rfl⟩)

end BraceBalance
