/-
  Scanning and publishing a file of a file system.
-/
import BraceBalance.FileSystem.Basic
import BraceBalance.Publish

set_option autoImplicit false

namespace BraceBalance

/-- Scans the file that a path names. -/
def FileSystem.scan (files : FileSystem) (path : Bytes) (listening : Bool) : ScanRun :=
  match files.open? path with
  | .error fault => ⟨[], .error (.opening path fault), []⟩
  | .ok source => source.scan path listening

/-- Publishes the findings in the file that a path names. -/
def FileSystem.publish (files : FileSystem) (path : Bytes) (format : Format) (sink : Sink) :
    Published :=
  BraceBalance.publish (files.scan path) path format sink

end BraceBalance
