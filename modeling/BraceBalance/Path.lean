/-
  Paths as byte strings, and their lexical forms.  Nothing here looks at a file system: a
  path is cleaned by its spelling alone.
-/
import BraceBalance.Text.Utf8

set_option autoImplicit false

namespace BraceBalance.Path

/-- The byte between the components of a path. -/
def slash : UInt8 := 0x2F

/-- The component that stays where it is. -/
def dot : Bytes := [0x2E]

/-- The component that leads to the parent. -/
def dotDot : Bytes := [0x2E, 0x2E]

/-! ## Components -/

/-- Puts a byte in front of the first component, or opens a new one at a slash. -/
def splitByte (b : UInt8) : List Bytes → List Bytes
  | [] => if b = slash then [[], []] else [[b]]
  | component :: rest => if b = slash then [] :: component :: rest else (b :: component) :: rest

/-- The components between the slashes of a path, empty ones included. -/
def split (path : Bytes) : List Bytes := path.foldr splitByte [[]]

/-- Components with slashes between them. -/
def join (components : List Bytes) : Bytes := List.intercalate [slash] components

/-- Whether a path starts at the root. -/
def isRooted (path : Bytes) : Bool := path.head? = some slash

/-! ## Cleaning -/

/-- Adds a component to the components kept so far (latest first): empty components and
`.` are left out, and `..` takes away the component before it.  At the root `..` has no
effect; a relative path keeps the `..` that nothing precedes. -/
def keep (rooted : Bool) (kept : List Bytes) (component : Bytes) : List Bytes :=
  if component = [] ∨ component = dot then kept
  else if component = dotDot then
    match kept with
    | [] => if rooted then [] else [dotDot]
    | last :: before => if last = dotDot then dotDot :: kept else before
  else component :: kept

/-- The components that cleaning keeps, in order. -/
def kept (path : Bytes) : List Bytes :=
  ((split path).foldl (keep (isRooted path)) []).reverse

/-- The shortest spelling of a path that is lexically the same; `.` for an empty one. -/
def clean (path : Bytes) : Bytes :=
  if isRooted path then slash :: join (kept path)
  else if (kept path).isEmpty then dot
  else join (kept path)

/-- The path that a component list names from the root. -/
def absolute (components : List Bytes) : Bytes := slash :: join components

/-- The clean absolute form of a path, as seen from a working directory. -/
def resolve (workingDirectory : List Bytes) (path : Bytes) : Bytes :=
  if isRooted path then clean path
  else clean (absolute workingDirectory ++ slash :: path)

/-- The path of the directory that holds a path's last component. -/
def parent (path : Bytes) : Bytes :=
  clean (path.reverse.dropWhile (· != slash)).reverse

end BraceBalance.Path
