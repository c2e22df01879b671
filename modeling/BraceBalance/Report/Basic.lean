/-
  What a scan finds: closing braces without partner, opening braces left open, and the lines
  that declare a function.
-/
import BraceBalance.Text.Utf8

set_option autoImplicit false

namespace BraceBalance

/-- A place in a file: the line counts from 1, the column counts characters from 0. -/
structure Position where
  line : Int
  column : Int
  deriving DecidableEq, Repr, Inhabited

/-- An opening brace that is not yet closed. -/
structure OpenBrace where
  position : Position
  /-- What kind of bracket it is; a scan finds only kind `open`. -/
  kind : Bytes
  deriving DecidableEq, Repr, Inhabited

/-- The opening brace that a scan meets at a position. -/
def OpenBrace.at (position : Position) : OpenBrace := ⟨position, Bytes.ofString "open"⟩

/-- A line that declares a function. -/
structure FunctionSite where
  name : Bytes
  line : Int
  deriving DecidableEq, Repr, Inhabited

/-- The findings of one scan, each list in the order of the file. -/
structure Report where
  filename : Bytes
  extraClosing : List Position
  unclosed : List OpenBrace
  functions : List FunctionSite
  deriving DecidableEq, Repr, Inhabited

namespace Report

/-- How many entries of a list a written report shows. -/
def maxListed : Int := 10

/-- The last `n` entries of a list; none for a negative `n`. -/
def lastOf {α : Type} (n : Int) (entries : List α) : List α :=
  entries.drop (entries.length - n.toNat)

/-- The last `n` unclosed braces. -/
def unclosedTail (report : Report) (n : Int) : List OpenBrace := lastOf n report.unclosed

/-- The last `n` function sites. -/
def functionTail (report : Report) (n : Int) : List FunctionSite := lastOf n report.functions

theorem lastOf_suffix {α : Type} (n : Int) (entries : List α) : lastOf n entries <:+ entries :=
  List.drop_suffix _ _

theorem length_lastOf {α : Type} (n : Int) (entries : List α) :
    (lastOf n entries).length = min n.toNat entries.length := by
  simp only [lastOf, List.length_drop]
  omega

end Report

end BraceBalance
