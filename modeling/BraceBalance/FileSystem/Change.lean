/-
  Changes of a file system and the news they make.  A change that cannot be made leaves
  everything as it is and makes no news, and neither does one that adds no bytes.
-/
import BraceBalance.FileSystem.Basic

set_option autoImplicit false

namespace BraceBalance

/-- A change of a file system. -/
inductive Change where
  /-- A ready-made file takes the place of whatever file has the name. -/
  | replace (file : Bytes) (content : Bytes)
  /-- Bytes are added to a file, which is made if nothing has the name. -/
  | append (file : Bytes) (content : Bytes)
  /-- A file, or a directory with all it holds, is removed. -/
  | remove (file : Bytes)
  /-- A file or directory gets another name; a file that has it is replaced. -/
  | rename (file : Bytes) (newName : Bytes)
  /-- Attributes of a file are changed. -/
  | chmod (file : Bytes)
  /-- A directory is made. -/
  | mkdir (file : Bytes)
  deriving DecidableEq, Repr

/-- What has happened at a place. -/
inductive News where
  /-- Something new stands there. -/
  | created (place : Location)
  /-- Bytes were written to the file there. -/
  | written (place : Location)
  /-- What stood there is gone, with everything below it. -/
  | removed (place : Location)
  /-- What stood there, with everything below it, now stands at another place. -/
  | renamed (place target : Location)
  /-- Only attributes changed. -/
  | attributesChanged (place : Location)
  deriving DecidableEq, Repr

namespace FileSystem

/-- Whether an entry can be made at a place. -/
def hasParent (files : FileSystem) (place : Location) : Bool :=
  place != [] && files.isDirectory place.dropLast

/-- Moves what stands at a place, and everything below it, to another place. -/
def move (files : FileSystem) (place target : Location) : FileSystem :=
  let moved := files.nodes.filterMap fun entry =>
    if place.isPrefixOf entry.1 then some (target ++ entry.1.drop place.length, entry.2) else none
  let rest := (files.erase place).erase target
  { rest with nodes := moved ++ rest.nodes }

/-- Whether what stands at a place can get another name.  A directory stands in the way of
everything, a file in the way of a directory, and nothing moves into itself. -/
def canMove (files : FileSystem) (place target : Location) : Bool :=
  place != [] && files.hasParent target && !place.isPrefixOf target &&
    match files.node? place, files.node? target with
    | none, _ => false
    | some _, none => true
    | some _, some .directory => false
    | some .directory, some (.file _) => false
    | some (.file _), some (.file _) => true

/-- Makes a change, and tells the news of it in order. -/
def apply (files : FileSystem) : Change → FileSystem × List News
  | .replace file content =>
    let place := files.locate file
    if files.hasParent place && !files.isDirectory place then
      (files.put place (.file content), [.created place])
    else (files, [])
  | .append file content =>
    let place := files.locate file
    match files.node? place with
    | some (.file before) =>
      if content.isEmpty then (files, [])
      else (files.put place (.file (before ++ content)), [.written place])
    | some .directory => (files, [])
    | none =>
      if files.hasParent place then
        (files.put place (.file content),
          if content.isEmpty then [.created place] else [.created place, .written place])
      else (files, [])
  | .remove file =>
    let place := files.locate file
    if (files.node? place).isSome && place != [] then (files.erase place, [.removed place])
    else (files, [])
  | .rename file newName =>
    let place := files.locate file
    let target := files.locate newName
    if files.canMove place target then (files.move place target, [.renamed place target])
    else (files, [])
  | .chmod file =>
    let place := files.locate file
    if (files.node? place).isSome then (files, [.attributesChanged place]) else (files, [])
  | .mkdir file =>
    let place := files.locate file
    if files.hasParent place && (files.node? place).isNone then
      (files.put place .directory, [.created place])
    else (files, [])

end FileSystem

end BraceBalance
