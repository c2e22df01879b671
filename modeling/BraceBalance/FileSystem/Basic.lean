/-
  A file system as the scanner sees it: directories and regular files, named by the
  components that lead to them from the root.  Paths are followed component by component,
  so `..` is taken of the directory that was reached and every component on the way has to
  exist.
-/
import BraceBalance.Fault
import BraceBalance.Line.Source
import BraceBalance.Path

set_option autoImplicit false

namespace BraceBalance

/-- The components that lead from the root to a place. -/
abbrev Location := List Bytes

/-- What stands at a place. -/
inductive Node where
  | file (content : Bytes)
  | directory
  deriving DecidableEq, Repr

/-- A file system with a working directory. -/
structure FileSystem where
  workingDirectory : Location
  /-- What stands where; the root itself is always a directory. -/
  nodes : List (Location × Node)
  deriving DecidableEq, Repr

namespace FileSystem

/-! ## Contents -/

/-- What stands at a place. -/
def node? (files : FileSystem) (place : Location) : Option Node :=
  if place = [] then some .directory else files.nodes.lookup place

/-- Whether a directory stands at a place. -/
def isDirectory (files : FileSystem) (place : Location) : Bool :=
  files.node? place = some .directory

/-- Puts something at a place, instead of what stood there. -/
def put (files : FileSystem) (place : Location) (node : Node) : FileSystem :=
  { files with nodes := (place, node) :: files.nodes.filter (·.1 != place) }

/-- Puts something at a place and makes the directories that are missing on the way. -/
def install (files : FileSystem) (place : Location) (node : Node) : FileSystem :=
  let onTheWay := (List.range place.length).map place.take
  let missing := onTheWay.filter fun directory => (files.node? directory).isNone
  (missing.foldl (fun files directory => files.put directory .directory) files).put place node

/-- Removes a place and everything below it. -/
def erase (files : FileSystem) (place : Location) : FileSystem :=
  { files with nodes := files.nodes.filter fun entry => !place.isPrefixOf entry.1 }

/-- A file system that holds nothing but its working directory. -/
def empty (workingDirectory : Location) : FileSystem where
  workingDirectory := workingDirectory
  nodes := (List.range workingDirectory.length).map fun n =>
    (workingDirectory.take (n + 1), .directory)

/-- The place that a path names by its spelling. -/
def locate (files : FileSystem) (path : Bytes) : Location :=
  Path.kept (Path.resolve files.workingDirectory path)

/-! ## Following a path -/

/-- The longest path that the system takes, in bytes. -/
def maxPathLength : Nat := 4095

/-- The longest component that the system takes, in bytes. -/
def maxNameLength : Nat := 255

/-- Follows components from a place.  Whatever is left to follow, the place has to be a
directory. -/
def follow (files : FileSystem) (place : Location) : List Bytes → Except PathFault Location
  | [] => .ok place
  | component :: rest =>
    if !files.isDirectory place then .error .notDirectory
    else if component = [] ∨ component = Path.dot then files.follow place rest
    else if component = Path.dotDot then files.follow place.dropLast rest
    else if maxNameLength < component.length then .error .nameTooLong
    else
      match files.node? (place ++ [component]) with
      | none => .error .notFound
      | some _ => files.follow (place ++ [component]) rest

/-- The place that a path leads to. -/
def find (files : FileSystem) (path : Bytes) : Except PathFault Location :=
  if path.contains 0 then .error .invalidName
  else if maxPathLength < path.length then .error .nameTooLong
  else if path = [] then .error .notFound
  else files.follow (if Path.isRooted path then [] else files.workingDirectory) (Path.split path)

/-- Opens a path for reading.  A directory opens, but reading it fails. -/
def open? (files : FileSystem) (path : Bytes) : Except PathFault Source :=
  match files.find path with
  | .error fault => .error fault
  | .ok place =>
    match files.node? place with
    | none => .error .notFound
    | some .directory => .ok (Source.failing (.isDirectory path))
    | some (.file content) => .ok (Source.ofContent content)

end FileSystem

end BraceBalance
