/-
  Why a scan or a write can fail, as causes, and the wording of each cause.
-/
import BraceBalance.Text.Utf8

set_option autoImplicit false

namespace BraceBalance

/-- Why a path cannot be opened. -/
inductive PathFault where
  /-- The path holds a NUL byte. -/
  | invalidName
  /-- The path or one of its components is longer than the system takes. -/
  | nameTooLong
  /-- Nothing has this name. -/
  | notFound
  /-- A component that is no directory stands where one is needed. -/
  | notDirectory
  deriving DecidableEq, Repr

/-- The wording of a path fault. -/
def PathFault.message : PathFault → Bytes
  | .invalidName => Bytes.ofString "invalid argument"
  | .nameTooLong => Bytes.ofString "file name too long"
  | .notFound => Bytes.ofString "no such file or directory"
  | .notDirectory => Bytes.ofString "not a directory"

/-- Why a stream cannot be read to its end. -/
inductive ReadFault where
  /-- The stream broke with this message. -/
  | broken (message : Bytes)
  /-- The path names a directory, which opens but cannot be read. -/
  | isDirectory (path : Bytes)
  /-- Read after read brought nothing. -/
  | noProgress
  deriving DecidableEq, Repr

/-- The wording of a read fault. -/
def ReadFault.message : ReadFault → Bytes
  | .broken message => message
  | .isDirectory path => Bytes.ofString "read " ++ path ++ Bytes.ofString ": is a directory"
  | .noProgress => Bytes.ofString "multiple Read calls return no data or error"

/-- Why a scan yields no report. -/
inductive ScanError where
  /-- The file cannot be opened. -/
  | opening (path : Bytes) (fault : PathFault)
  /-- The stream cannot be read to its end. -/
  | reading (name : Bytes) (fault : ReadFault)
  /-- A scanner of another kind failed and says why. -/
  | failed (message : Bytes)
  deriving DecidableEq, Repr

/-- The wording of a scan error. -/
def ScanError.message : ScanError → Bytes
  | .opening path fault =>
    Bytes.ofString "error opening " ++ path ++ Bytes.ofString ": open " ++ path ++
      Bytes.ofString ": " ++ fault.message
  | .reading name fault =>
    Bytes.ofString "error reading " ++ name ++ Bytes.ofString ": " ++ fault.message
  | .failed message => message

/-- Why a write is refused, in the words of the one who refuses it. -/
structure WriteFault where
  message : Bytes
  deriving DecidableEq, Repr

end BraceBalance
