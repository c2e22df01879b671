/-
  Events as a watcher of one directory receives them.

  A watcher holds on to the directory itself, not to its name.  When a directory further up
  gets another name, the watched directory goes along and its events keep arriving, under
  the path by which the watcher knows it.  When the watched directory itself is removed or
  renamed, the watcher has lost it for good.
-/
import BraceBalance.FileSystem.Change

set_option autoImplicit false

namespace BraceBalance

/-- An event: a path, and one bit for each kind of news; further bits mean nothing. -/
structure Event where
  path : Bytes
  kinds : UInt32
  deriving DecidableEq, Repr

namespace Event

/-- Something new has the name. -/
def create : UInt32 := 1

/-- The content changed. -/
def write : UInt32 := 2

/-- The name is gone. -/
def remove : UInt32 := 4

/-- The name was given up for another one. -/
def rename : UInt32 := 8

/-- Only attributes changed. -/
def attributes : UInt32 := 16

/-- The kinds of news and their names, in the order in which they are told. -/
def kindNames : List (UInt32 × String) :=
  [(create, "CREATE"), (remove, "REMOVE"), (write, "WRITE"), (rename, "RENAME"),
    (attributes, "CHMOD")]

/-- The names of the kinds of an event. -/
def kindsText (event : Event) : Bytes :=
  let named := kindNames.filter fun kind => event.kinds &&& kind.1 != 0
  Bytes.ofString ("|".intercalate (named.map Prod.snd))

/-- The kinds of news that can mean new content for a file. -/
def relevantKinds : UInt32 := create ||| write ||| rename

/-- Whether an event can mean new content for the watched file, whose path is clean. -/
def isRelevant (event : Event) (target : Bytes) : Bool :=
  Path.clean event.path = target && event.kinds &&& relevantKinds != 0

end Event

namespace News

/-- The places that news is about, with the kind of event for each. -/
def kindsAt : News → List (Location × UInt32)
  | .created place => [(place, Event.create)]
  | .written place => [(place, Event.write)]
  | .removed place => [(place, Event.remove)]
  | .renamed place target => [(place, Event.rename), (target, Event.create)]
  | .attributesChanged place => [(place, Event.attributes)]

/-- The events that a watcher of a directory receives: those of the directory's entries,
under the path by which it knows the directory. -/
def events (news : News) (directory : Location) (path : Bytes) : List Event :=
  news.kindsAt.filterMap fun (place, kinds) =>
    match place.getLast? with
    | none => none
    | some name =>
      if place.dropLast = directory then some ⟨path ++ Path.slash :: name, kinds⟩ else none

/-- Where a watched directory stands after the news; `none` if the watcher has lost it. -/
def carry (news : News) (directory : Location) : Option Location :=
  match news with
  | .created place => if place = directory then none else some directory
  | .written _ => some directory
  | .removed place => if place.isPrefixOf directory then none else some directory
  | .renamed place target =>
    if place = directory ∨ target = directory then none
    else if place.isPrefixOf directory then some (target ++ directory.drop place.length)
    else some directory
  | .attributesChanged _ => some directory

end News

end BraceBalance
