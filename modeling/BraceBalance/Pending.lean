/-
  The opening braces that still wait for their partner.  A closing brace takes the most
  recent one; what is left at the end of the file is unclosed.
-/
import BraceBalance.Report.Basic

set_option autoImplicit false

namespace BraceBalance

/-- The opening braces that wait for a closing one, most recent first. -/
structure Pending where
  recentFirst : List OpenBrace
  deriving DecidableEq, Repr, Inhabited

namespace Pending

/-- No brace waits. -/
def empty : Pending := ⟨[]⟩

/-- One more opening brace waits. -/
def push (pending : Pending) (position : Position) : Pending :=
  ⟨OpenBrace.at position :: pending.recentFirst⟩

/-- The most recent brace is closed; `none` if no brace waits. -/
def pop? (pending : Pending) : Option Pending :=
  match pending.recentFirst with
  | [] => none
  | _ :: rest => some ⟨rest⟩

/-- How many braces wait. -/
def size (pending : Pending) : Nat := pending.recentFirst.length

/-- The waiting braces in the order of the file. -/
def toList (pending : Pending) : List OpenBrace := pending.recentFirst.reverse

@[simp] theorem toList_empty : empty.toList = [] := rfl

@[simp] theorem toList_push (pending : Pending) (position : Position) :
    (pending.push position).toList = pending.toList ++ [OpenBrace.at position] := by
  simp [push, toList]

theorem pop?_eq_none_iff {pending : Pending} : pending.pop? = none ↔ pending.toList = [] := by
  cases pending with
  | mk braces => cases braces <;> simp [pop?, toList]

theorem toList_pop? {pending rest : Pending} (h : pending.pop? = some rest) :
    rest.toList = pending.toList.dropLast := by
  cases pending with
  | mk braces =>
    cases braces with
    | nil => simp [pop?] at h
    | cons brace braces =>
      simp only [pop?, Option.some.injEq] at h
      subst h
      simp [toList]

@[simp] theorem length_toList (pending : Pending) : pending.toList.length = pending.size := by
  simp [toList, size]

end Pending

end BraceBalance
