/-
  The flags of the command line.  All flags are switches: named alone a flag is turned on,
  and `=value` sets it.  Flags and arguments can be mixed; `--` ends the flags.
-/
import BraceBalance.Text.Quoted

set_option autoImplicit false

namespace BraceBalance.CommandLine

/-! ## Flags and their settings -/

/-- The flags. -/
inductive Flag where
  | debug
  | help
  | json
  | watch
  deriving DecidableEq, Repr

namespace Flag

/-- All flags. -/
def all : List Flag := [.debug, .help, .json, .watch]

/-- The name behind `--`. -/
def name : Flag → String
  | .debug => "debug"
  | .help => "help"
  | .json => "json"
  | .watch => "watch"

/-- The letter behind `-`, for the flags that have one. -/
def letter? : Flag → Option Char
  | .debug => none
  | .help => some 'h'
  | .json => none
  | .watch => some 'w'

/-- The flag with a name. -/
def ofName? (name : Bytes) : Option Flag := all.find? fun flag => Bytes.ofString flag.name = name

/-- The flag with a letter. -/
def ofLetter? (letter : UInt8) : Option Flag :=
  all.find? fun flag => flag.letter?.map Char.toNat = some letter.toNat

/-- How messages name a flag. -/
def title (flag : Flag) : String :=
  match flag.letter? with
  | none => "--" ++ flag.name
  | some letter => "-" ++ String.singleton letter ++ ", --" ++ flag.name

end Flag

/-- Which flags are on. -/
structure Settings where
  debug : Bool
  help : Bool
  json : Bool
  watch : Bool
  deriving DecidableEq, Repr

namespace Settings

/-- Every flag is off. -/
def off : Settings := ⟨false, false, false, false⟩

/-- Sets a flag; the last setting counts. -/
def set (settings : Settings) (flag : Flag) (value : Bool) : Settings :=
  match flag with
  | .debug => { settings with debug := value }
  | .help => { settings with help := value }
  | .json => { settings with json := value }
  | .watch => { settings with watch := value }

end Settings

/-- The truth value that a text spells. -/
def truth? (value : Bytes) : Option Bool :=
  if ["1", "t", "T", "TRUE", "true", "True"].any (Bytes.ofString · = value) then some true
  else if ["0", "f", "F", "FALSE", "false", "False"].any (Bytes.ofString · = value) then some false
  else none

/-! ## Errors -/

/-- What can be wrong with a command line. -/
inductive UsageError where
  /-- A token that begins like a flag and is none. -/
  | badSyntax (token : Bytes)
  /-- No flag has the name. -/
  | unknownFlag (name : Bytes)
  /-- No flag has the letter, which is followed by the rest of its group. -/
  | unknownLetter (letter : UInt8) (group : Bytes)
  /-- A flag is set to something that is no truth value. -/
  | badValue (flag : Flag) (value : Bytes)
  deriving DecidableEq, Repr

/-- The wording of a usage error. -/
def UsageError.message : UsageError → Bytes
  | .badSyntax token => Bytes.ofString "bad flag syntax: " ++ token
  | .unknownFlag name => Bytes.ofString "unknown flag: --" ++ name
  | .unknownLetter letter group =>
    Bytes.ofString "unknown shorthand flag: " ++ Quoted.character (Char.ofNat letter.toNat) ++
      Bytes.ofString " in -" ++ group
  | .badValue flag value =>
    Bytes.ofString "invalid argument " ++ Quoted.text value ++ Bytes.ofString " for " ++
      Quoted.text (Bytes.ofString flag.title) ++
      Bytes.ofString " flag: strconv.ParseBool: parsing " ++ Quoted.text value ++
      Bytes.ofString ": invalid syntax"

/-! ## Parsing -/

/-- The byte `-`. -/
def dash : UInt8 := 0x2D

/-- The byte `=`. -/
def equals : UInt8 := 0x3D

/-- Sets a flag to the truth value that a text spells. -/
def Settings.setTo (settings : Settings) (flag : Flag) (value : Bytes) :
    Except UsageError Settings :=
  match truth? value with
  | some value => .ok (settings.set flag value)
  | none => .error (.badValue flag value)

/-- A token `--name` or `--name=value`, without its dashes. -/
def longFlag (settings : Settings) (body : Bytes) : Except UsageError Settings :=
  if body.head? = none ∨ body.head? = some dash ∨ body.head? = some equals then
    .error (.badSyntax (dash :: dash :: body))
  else
    let name := body.takeWhile (· != equals)
    match Flag.ofName? name with
    | none => .error (.unknownFlag name)
    | some flag =>
      match body.dropWhile (· != equals) with
      | [] => .ok (settings.set flag true)
      | _ :: value => settings.setTo flag value

/-- Groups of letters that begin like this belong to test runners and are passed over. -/
def testRunner : Bytes := Bytes.ofString "test."

/-- A token `-letters`, without its dash.  A letter can be followed by `=value`, which ends
the group; an `=` with nothing behind it counts as a letter. -/
def letterGroup (settings : Settings) : Bytes → Except UsageError Settings
  | [] => .ok settings
  | letter :: rest =>
    if testRunner.isPrefixOf (letter :: rest) then .ok settings
    else
      match Flag.ofLetter? letter with
      | none => .error (.unknownLetter letter (letter :: rest))
      | some flag =>
        if rest.head? = some equals ∧ 1 < rest.length then settings.setTo flag rest.tail
        else letterGroup (settings.set flag true) rest

/-- What a command line asks for. -/
structure Invocation where
  settings : Settings
  arguments : List Bytes
  deriving DecidableEq, Repr

/-- Reads tokens, behind the settings made and the arguments found so far (latest first). -/
def parseFrom (settings : Settings) (found : List Bytes) : List Bytes → Except UsageError Invocation
  | [] => .ok ⟨settings, found.reverse⟩
  | token :: rest =>
    match token with
    | [] => parseFrom settings (token :: found) rest
    | first :: body =>
      if first ≠ dash ∨ body = [] then parseFrom settings (token :: found) rest
      else if body = [dash] then .ok ⟨settings, found.reverse ++ rest⟩
      else
        let set :=
          if body.head? = some dash then longFlag settings body.tail else letterGroup settings body
        match set with
        | .error error => .error error
        | .ok settings => parseFrom settings found rest

/-- Reads the tokens of a command line.  The first wrong token decides the error. -/
def parse (tokens : List Bytes) : Except UsageError Invocation := parseFrom .off [] tokens

end BraceBalance.CommandLine
