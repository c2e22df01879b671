/-
  Reading line by line depends on the bytes of a stream and not on how they are delivered.

  `Source.content` and `Source.outcome` say what a script of reads amounts to: the bytes up
  to the end, to the fault, or to one empty read too many.  The invariant of the reader is
  that the bytes in hand followed by the content still to come are the text not yet handed
  out; moving to the next line takes exactly the first line off it (`Reader.advance_cases`).
-/
import BraceBalance.Line.Reader
import BraceBalance.Proofs.Newline

set_option autoImplicit false

namespace BraceBalance

namespace Source

/-! ## What a script of reads amounts to -/

/-- The reads start with one more empty read than a reader puts up with. -/
def IsStuck (reads : List Bytes) : Prop := List.replicate (maxEmptyReads + 1) [] <+: reads

instance (reads : List Bytes) : Decidable (IsStuck reads) :=
  inferInstanceAs (Decidable (_ <+: _))

/-- The reads in front of the first run of empty ones that is too long, if there is one. -/
def beforeStuck? : List Bytes → Option (List Bytes)
  | [] => none
  | read :: reads =>
    if IsStuck (read :: reads) then some [] else (beforeStuck? reads).map (read :: ·)

/-- What a stream amounts to: the bytes delivered up to its end, those of the read that tells
of the end included, or up to the first run of empty reads that is too long; and the fault
that ended it. -/
def delivered (source : Source) : Bytes × Option ReadFault :=
  match beforeStuck? source.reads with
  | some reads => (reads.flatten, some .noProgress)
  | none => (source.reads.flatten ++ source.last, source.fault)

/-- The bytes that a stream delivers. -/
def content (source : Source) : Bytes := source.delivered.1

/-- The fault that ends a stream for its reader; `none` for its regular end. -/
def outcome (source : Source) : Option ReadFault := source.delivered.2

/-- What is still to come in a state. -/
def State.delivered : State → Bytes × Option ReadFault
  | .running rest => rest.delivered
  | .ended fault => ([], fault)

/-! ## Runs of empty reads -/

theorem not_isStuck_replicate {empty : Nat} (h : empty ≤ maxEmptyReads) :
    ¬ IsStuck (List.replicate empty []) := by
  intro hstuck
  have hlen := List.IsPrefix.length_le hstuck
  simp only [List.length_replicate] at hlen
  omega

theorem not_isStuck_append_cons {empty : Nat} (h : empty ≤ maxEmptyReads) {read : Bytes}
    (hread : read ≠ []) (reads : List Bytes) :
    ¬ IsStuck (List.replicate empty [] ++ read :: reads) := by
  intro hstuck
  have hget : (List.replicate (maxEmptyReads + 1) ([] : Bytes))[empty]? =
      (List.replicate empty [] ++ read :: reads)[empty]? := by
    obtain ⟨rest, hrest⟩ := hstuck
    rw [← hrest, List.getElem?_append_left (by simp; omega)]
  rw [List.getElem?_replicate_of_lt (by omega),
    List.getElem?_append_right (by simp)] at hget
  simp only [List.length_replicate, Nat.sub_self, List.getElem?_cons_zero,
    Option.some.injEq] at hget
  exact hread hget.symm

theorem beforeStuck?_replicate {empty : Nat} (h : empty ≤ maxEmptyReads) :
    beforeStuck? (List.replicate empty []) = none := by
  induction empty with
  | zero => rfl
  | succ empty ih =>
    have hnot := not_isStuck_replicate h
    rw [List.replicate_succ] at hnot ⊢
    rw [beforeStuck?, if_neg hnot, ih (by omega)]
    rfl

theorem beforeStuck?_append_cons {empty : Nat} (h : empty ≤ maxEmptyReads) {read : Bytes}
    (hread : read ≠ []) (reads : List Bytes) :
    beforeStuck? (List.replicate empty [] ++ read :: reads) =
      (beforeStuck? reads).map (List.replicate empty [] ++ read :: ·) := by
  induction empty with
  | zero =>
    have hnot := not_isStuck_append_cons h hread reads
    rw [List.replicate_zero, List.nil_append] at hnot
    rw [List.replicate_zero, List.nil_append, beforeStuck?, if_neg hnot]
    rfl
  | succ empty ih =>
    have hnot := not_isStuck_append_cons h hread reads
    rw [List.replicate_succ, List.cons_append] at hnot ⊢
    rw [beforeStuck?, if_neg hnot, ih (by omega), Option.map_map]
    rfl

theorem beforeStuck?_stuck (reads : List Bytes) :
    beforeStuck? (List.replicate (maxEmptyReads + 1) [] ++ reads) = some [] := by
  have hstuck : IsStuck (List.replicate (maxEmptyReads + 1) [] ++ reads) :=
    List.prefix_append _ _
  rw [List.replicate_succ, List.cons_append] at hstuck ⊢
  rw [beforeStuck?, if_pos hstuck]

theorem delivered_replicate {empty : Nat} (h : empty ≤ maxEmptyReads) (last : Bytes)
    (fault : Option ReadFault) :
    delivered ⟨List.replicate empty [], last, fault⟩ = (last, fault) := by
  simp [delivered, beforeStuck?_replicate h]

theorem delivered_append_cons {empty : Nat} (h : empty ≤ maxEmptyReads) {read : Bytes}
    (hread : read ≠ []) (reads : List Bytes) (last : Bytes) (fault : Option ReadFault) :
    delivered ⟨List.replicate empty [] ++ read :: reads, last, fault⟩ =
      (read ++ (delivered ⟨reads, last, fault⟩).1, (delivered ⟨reads, last, fault⟩).2) := by
  simp only [delivered, beforeStuck?_append_cons h hread]
  cases beforeStuck? reads with
  | none => simp
  | some before => simp

theorem delivered_stuck (reads : List Bytes) (last : Bytes) (fault : Option ReadFault) :
    delivered ⟨List.replicate (maxEmptyReads + 1) [] ++ reads, last, fault⟩ =
      ([], some .noProgress) := by
  simp only [delivered, beforeStuck?_stuck]
  rfl

theorem replicate_append_nil_cons (empty : Nat) (reads : List Bytes) :
    List.replicate empty [] ++ [] :: reads = List.replicate (empty + 1) [] ++ reads := by
  rw [List.replicate_succ', List.append_assoc]
  rfl

/-! ## Pulling keeps what is delivered -/

/-- Reads that brought nothing do not change what a script amounts to, up to the last one
that is put up with. -/
theorem pullAfter_keeps (source : Source) {empty : Nat} (h : empty ≤ maxEmptyReads)
    (reads : List Bytes) :
    ((source.pullAfter empty reads).1 ++ (source.pullAfter empty reads).2.delivered.1,
        (source.pullAfter empty reads).2.delivered.2) =
      delivered ⟨List.replicate empty [] ++ reads, source.last, source.fault⟩ := by
  induction reads generalizing empty with
  | nil =>
    rw [List.append_nil, delivered_replicate h]
    simp [pullAfter, State.delivered]
  | cons read reads ih =>
    cases read with
    | nil =>
      rw [replicate_append_nil_cons]
      simp only [pullAfter]
      split
      · rename_i hlt
        exact ih hlt
      · have hfull : empty = maxEmptyReads := by omega
        rw [hfull, delivered_stuck]
        rfl
    | cons b bytes =>
      rw [delivered_append_cons h (List.cons_ne_nil b bytes)]
      rfl

theorem pull_keeps (source : Source) :
    (source.pull.1 ++ source.pull.2.delivered.1, source.pull.2.delivered.2) =
      source.delivered :=
  source.pullAfter_keeps (Nat.zero_le _) source.reads

/-! ## Reads handed over in parts

A read brings no more than the room it is offered.  What does not fit is kept for the next
call, so a script is met by its reader in parts that depend on the room of each call. -/

/-- The parts of a read when the calls offer `room 0 + 1`, `room 1 + 1`, … bytes. -/
def handOver (room : Nat → Nat) (read : Bytes) : List Bytes :=
  if read.length ≤ room 0 + 1 then [read]
  else
    read.take (room 0 + 1) :: handOver (fun call => room (call + 1)) (read.drop (room 0 + 1))
termination_by read.length
decreasing_by
  simp only [List.length_drop]
  omega

/-- The parts of several reads in a row. -/
def handOverAll (room : Nat → Nat) : List Bytes → List Bytes
  | [] => []
  | read :: reads =>
    handOver room read ++
      handOverAll (fun call => room (call + (handOver room read).length)) reads

/-- The stream as its reader meets it when each call offers some room. -/
def offered (source : Source) (room : Nat → Nat) : Source :=
  ofReadsTogether (handOverAll room (source.reads ++ [source.last])) source.fault

theorem handOver_ne_nil (room : Nat → Nat) (read : Bytes) : handOver room read ≠ [] := by
  rw [handOver]
  split <;> simp

theorem handOver_nil (room : Nat → Nat) : handOver room [] = [[]] := by
  rw [handOver, if_pos (by simp)]

theorem flatten_handOver (room : Nat → Nat) (read : Bytes) :
    (handOver room read).flatten = read := by
  fun_induction handOver room read with
  | case1 => simp
  | case2 room read hlong ih => rw [List.flatten_cons, ih, List.take_append_drop]

theorem ne_nil_of_mem_handOver {room : Nat → Nat} {read part : Bytes} (hread : read ≠ [])
    (hpart : part ∈ handOver room read) : part ≠ [] := by
  fun_induction handOver room read with
  | case1 =>
    rw [List.mem_singleton.mp hpart]
    exact hread
  | case2 room read hlong ih =>
    rcases List.mem_cons.mp hpart with rfl | hpart
    · simpa using hread
    · refine ih ?_ hpart
      rw [ne_eq, List.drop_eq_nil_iff]
      exact hlong

theorem handOverAll_ne_nil (room : Nat → Nat) (reads : List Bytes) (last : Bytes) :
    handOverAll room (reads ++ [last]) ≠ [] := by
  cases reads with
  | nil => simp [handOverAll, handOver_ne_nil]
  | cons read reads => simp [handOverAll, handOver_ne_nil]

/-- Parts that bring something count as one read. -/
theorem delivered_parts {empty : Nat} (h : empty ≤ maxEmptyReads) {parts : List Bytes}
    (hparts : ∀ part ∈ parts, part ≠ []) (hne : parts ≠ []) (reads : List Bytes) (last : Bytes)
    (fault : Option ReadFault) :
    delivered ⟨List.replicate empty [] ++ (parts ++ reads), last, fault⟩ =
      (parts.flatten ++ (delivered ⟨reads, last, fault⟩).1,
        (delivered ⟨reads, last, fault⟩).2) := by
  induction parts generalizing empty with
  | nil => exact absurd rfl hne
  | cons part parts ih =>
    have hpart : part ≠ [] := hparts part List.mem_cons_self
    rw [List.cons_append, delivered_append_cons h hpart]
    cases parts with
    | nil => simp
    | cons next parts =>
      have hrest := ih (Nat.zero_le _) (fun p hp => hparts p (List.mem_cons_of_mem _ hp))
        (List.cons_ne_nil next parts)
      rw [List.replicate_zero, List.nil_append] at hrest
      rw [hrest]
      simp only [List.flatten_cons, List.append_assoc]

theorem ofReadsTogether_concat (reads : List Bytes) (last : Bytes)
    (fault : Option ReadFault) :
    ofReadsTogether (reads ++ [last]) fault = ⟨reads, last, fault⟩ := by
  simp [ofReadsTogether]

/-- The parts of the last read amount to that read. -/
theorem delivered_handOver {empty : Nat} (h : empty ≤ maxEmptyReads) (room : Nat → Nat)
    (last : Bytes) (fault : Option ReadFault) :
    delivered (ofReadsTogether (List.replicate empty [] ++ handOver room last) fault) =
      (last, fault) := by
  by_cases hlast : last = []
  · rw [hlast, handOver_nil, ofReadsTogether_concat, delivered_replicate h]
  · obtain ⟨front, final, hsplit⟩ : ∃ front final, handOver room last = front ++ [final] :=
      ⟨_, _, (List.dropLast_concat_getLast (handOver_ne_nil room last)).symm⟩
    have hflatten := flatten_handOver room last
    rw [hsplit, List.flatten_append] at hflatten
    rw [hsplit, ← List.append_assoc, ofReadsTogether_concat]
    cases front with
    | nil =>
      rw [List.append_nil, delivered_replicate h, ← hflatten]
      simp
    | cons part front =>
      have hparts : ∀ p ∈ part :: front, p ≠ [] := by
        intro p hp
        have hmem : p ∈ handOver room last := by
          rw [hsplit]
          exact List.mem_append_left _ hp
        exact ne_nil_of_mem_handOver hlast hmem
      have hdelivered := delivered_parts h hparts (List.cons_ne_nil part front) [] final fault
      rw [List.append_nil] at hdelivered
      rw [hdelivered, ← hflatten]
      simp [delivered, beforeStuck?]

theorem delivered_handOverAll {empty : Nat} (h : empty ≤ maxEmptyReads) (room : Nat → Nat)
    (reads : List Bytes) (last : Bytes) (fault : Option ReadFault) :
    delivered (ofReadsTogether
        (List.replicate empty [] ++ handOverAll room (reads ++ [last])) fault) =
      delivered ⟨List.replicate empty [] ++ reads, last, fault⟩ := by
  induction reads generalizing empty room with
  | nil =>
    have hall : handOverAll room ([] ++ [last]) = handOver room last := by simp [handOverAll]
    rw [hall, List.append_nil, delivered_replicate h, delivered_handOver h]
  | cons read reads ih =>
    rw [List.cons_append, handOverAll]
    generalize hlater : (fun call => room (call + (handOver room read).length)) = later
    obtain ⟨front, final, hsplit⟩ :
        ∃ front final, handOverAll later (reads ++ [last]) = front ++ [final] :=
      ⟨_, _, (List.dropLast_concat_getLast (handOverAll_ne_nil later reads last)).symm⟩
    by_cases hread : read = []
    · rw [hread, handOver_nil, List.singleton_append, replicate_append_nil_cons,
        replicate_append_nil_cons]
      rcases Nat.lt_or_ge empty maxEmptyReads with hlt | hge
      · exact ih hlt later
      · have hfull : empty = maxEmptyReads := by omega
        rw [hsplit, ← List.append_assoc, ofReadsTogether_concat, hfull, delivered_stuck,
          delivered_stuck]
    · have hnext := ih (Nat.zero_le _) later
      rw [List.replicate_zero, List.nil_append, List.nil_append, hsplit,
        ofReadsTogether_concat] at hnext
      rw [hsplit, ← List.append_assoc, ← List.append_assoc, ofReadsTogether_concat,
        List.append_assoc, delivered_parts h (fun part => ne_nil_of_mem_handOver hread)
          (handOver_ne_nil room read), flatten_handOver, delivered_append_cons h hread, hnext]

/-- The room offered to the calls does not change what a stream amounts to. -/
theorem delivered_offered (source : Source) (room : Nat → Nat) :
    (source.offered room).delivered = source.delivered :=
  delivered_handOverAll (Nat.zero_le _) room source.reads source.last source.fault

end Source

namespace Reader

/-! ## One line -/

/-- The text that is not yet handed out. -/
def unread (reader : Reader) : Bytes := reader.buffer ++ reader.input.delivered.1

/-- The fault that the reader will tell behind the last line. -/
def outcome (reader : Reader) : Option ReadFault := reader.input.delivered.2

/-- A reader behind the last line. -/
def finished (fault : Option ReadFault) (current : Line) : Reader := ⟨[], .ended fault, current⟩

/-- Moving on takes the first line off the text not yet handed out, or finds it empty. -/
theorem advance_cases (reader : Reader) :
    (reader.unread = [] ∧
        reader.advance = (false, finished reader.outcome reader.current)) ∨
      ∃ line next, reader.advance = (true, next) ∧
        Newline.bytes.lines reader.unread = line :: Newline.bytes.lines next.unread ∧
        next.current = ⟨reader.current.number + 1, Utf8.text line⟩ ∧
        next.outcome = reader.outcome := by
  induction hn : reader.input.remaining using Nat.strongRecOn generalizing reader with
  | _ n ih =>
    subst hn
    rw [advance]
    cases hcut : Cut.first? reader.buffer reader.atEnd with
    | some cut =>
      refine Or.inr ⟨cut.line, reader.deliver cut, rfl, ?_, rfl, rfl⟩
      refine Cut.lines_of_first? hcut ?_
      intro hend
      cases hinput : reader.input with
      | running source => simp [atEnd, hinput] at hend
      | ended fault => rfl
    | none =>
      simp only
      split
      · rename_i fault hinput
        have hend : reader.atEnd = true := by simp [atEnd, hinput]
        rw [hend] at hcut
        have hbuffer : reader.buffer = [] := Cut.eq_nil_of_first?_eq_none hcut
        refine Or.inl ⟨?_, ?_⟩
        · simp [unread, hinput, hbuffer, Source.State.delivered]
        · simp [finished, outcome, hinput, Source.State.delivered]
      · rename_i source hinput
        have hkeeps := source.pull_keeps
        let refilled : Reader :=
          { reader with buffer := reader.buffer ++ source.pull.1, input := source.pull.2 }
        have hunread : refilled.unread = reader.unread := by
          simp only [refilled, unread, hinput, Source.State.delivered, List.append_assoc,
            ← hkeeps]
        have hsame : refilled.outcome = reader.outcome := by
          simp only [refilled, outcome, hinput, Source.State.delivered, ← hkeeps]
        have hless : refilled.input.remaining < reader.input.remaining := by
          rw [hinput]
          exact source.pull_remaining
        have hrefilled := ih _ hless refilled rfl
        rw [hunread, hsame] at hrefilled
        exact hrefilled

/-! ## All lines -/

/-- Raw lines as lines of a stream: numbered from `first` on, their stray bytes dropped. -/
def numbered (first : Nat) (lines : List Bytes) : List Line :=
  (lines.zipIdx first).map fun line => ⟨line.2, Utf8.text line.1⟩

@[simp] theorem numbered_nil (first : Nat) : numbered first [] = [] := rfl

@[simp] theorem numbered_cons (first : Nat) (line : Bytes) (lines : List Bytes) :
    numbered first (line :: lines) = ⟨first, Utf8.text line⟩ :: numbered (first + 1) lines := rfl

theorem numbered_append (first : Nat) (front lines : List Bytes) :
    numbered first (front ++ lines) =
      numbered first front ++ numbered (first + front.length) lines := by
  rw [numbered, List.zipIdx_append, List.map_append]
  rfl

@[simp] theorem length_numbered (first : Nat) (lines : List Bytes) :
    (numbered first lines).length = lines.length := by
  simp [numbered]

theorem numbered_increase (first : Nat) (lines : List Bytes) :
    (numbered first lines).Pairwise fun line later => line.number < later.number := by
  induction lines generalizing first with
  | nil => exact List.Pairwise.nil
  | cons line lines ih =>
    rw [numbered_cons, List.pairwise_cons]
    refine ⟨?_, ih (first + 1)⟩
    intro later hlater
    obtain ⟨entry, hentry, rfl⟩ := List.mem_map.mp hlater
    exact List.le_snd_of_mem_zipIdx hentry

/-- The last of some lines has the number of the line before them plus their count. -/
theorem number_getLastD_numbered (lines : List Bytes) (before : Line) :
    ((numbered (before.number + 1) lines).getLastD before).number =
      before.number + lines.length := by
  induction lines generalizing before with
  | nil => rfl
  | cons line lines ih =>
    rw [numbered_cons, List.getLastD_cons, List.length_cons]
    have hrest := ih ⟨before.number + 1, Utf8.text line⟩
    rw [hrest]
    simp only
    omega

/-- Reading to the end hands out all lines of the text, in order, and ends behind the last. -/
theorem linesOnto_eq (read : List Line) (reader : Reader) :
    let rest := numbered (reader.current.number + 1) (Newline.bytes.lines reader.unread)
    linesOnto read reader =
      (read.reverse ++ rest, finished reader.outcome (rest.getLastD reader.current)) := by
  induction hlines : Newline.bytes.lines reader.unread generalizing read reader with
  | nil =>
    rcases advance_cases reader with ⟨-, hadvance⟩ | ⟨line, next, -, hcons, -, -⟩
    · rw [linesOnto]
      split
      · rename_i next h
        rw [hadvance] at h
        simp at h
      · rename_i next h
        rw [hadvance] at h
        simp only [Prod.mk.injEq, true_and] at h
        subst h
        simp
    · rw [hlines] at hcons
      cases hcons
  | cons line rest ih =>
    rcases advance_cases reader with ⟨hunread, -⟩ | ⟨first, next, hadvance, hcons, hcurrent, hsame⟩
    · rw [hunread] at hlines
      cases hlines
    · rw [hlines] at hcons
      simp only [List.cons.injEq] at hcons
      obtain ⟨rfl, hrest⟩ := hcons
      have hnext := ih (next.current :: read) next hrest.symm
      rw [linesOnto]
      split
      · rename_i next' h
        rw [hadvance] at h
        simp only [Prod.mk.injEq, true_and] at h
        subst h
        rw [hnext]
        simp only [hsame, hcurrent, numbered_cons, List.reverse_cons,
          List.append_assoc, List.singleton_append, List.getLastD_cons]
      · rename_i next' h
        rw [hadvance] at h
        simp at h

/-- The lines of a reader, one call at a time. -/
theorem lines_eq (reader : Reader) :
    reader.lines =
      match reader.advance with
      | (true, next) => (next.current :: next.lines.1, next.lines.2)
      | (false, next) => ([], next) := by
  rw [lines, linesOnto]
  split
  · rename_i next hadvance
    simp only [hadvance, lines, linesOnto_eq, List.reverse_nil, List.nil_append]
    rfl
  · rename_i next hadvance
    rw [hadvance]
    rfl

/-- All lines of a stream are those of its content. -/
theorem lines_ofSource (source : Source) :
    let read := numbered 1 (Newline.bytes.lines source.content)
    (ofSource source).lines = (read, finished source.outcome (read.getLastD ⟨0, []⟩)) :=
  linesOnto_eq [] (ofSource source)

/-- Behind the last line nothing changes any more. -/
theorem advance_finished (fault : Option ReadFault) (current : Line) :
    (finished fault current).advance = (false, finished fault current) := by
  rw [advance]
  rfl

theorem repeat_advance_finished (fault : Option ReadFault) (current : Line) (times : Nat) :
    Nat.repeat (fun reader => reader.advance.2) times (finished fault current) =
      finished fault current := by
  induction times with
  | zero => rfl
  | succ times ih =>
    rw [Nat.repeat, ih, advance_finished]

/-- However the bytes of a stream are delivered, its reader hands out the lines of its
content and then tells how the stream ended.  Every further attempt to move on fails and
leaves the reader as it is, the last line still at hand.  The room that the reads are
offered makes no difference. -/
theorem lines_of_every_delivery (source : Source) :
    let run := (ofSource source).lines
    run.1 = numbered 1 (Newline.bytes.lines source.content) ∧
      run.2.fault = source.outcome ∧
      run.2.current = run.1.getLastD ⟨0, []⟩ ∧
      (∀ times, (Nat.repeat (fun reader => reader.advance.2) times run.2).advance =
        (false, run.2)) ∧
      ∀ room, (ofSource (source.offered room)).lines = run := by
  intro run
  have hrun : run = _ := lines_ofSource source
  refine ⟨by rw [hrun], by rw [hrun]; rfl, by rw [hrun]; rfl, ?_, ?_⟩
  · intro times
    rw [hrun, repeat_advance_finished, advance_finished]
  · intro room
    have hoffered := lines_ofSource (source.offered room)
    simp only [Source.content, Source.outcome, source.delivered_offered room] at hoffered
    rw [hoffered, hrun]
    rfl

end Reader

end BraceBalance
