/-
  Log entries as lines of text: one JSON object a line.
-/
import BraceBalance.Log
import BraceBalance.Text.Json

set_option autoImplicit false

namespace BraceBalance.Log

/-- A detail of an entry. -/
def Detail.render : Detail → Bytes
  | .text value => Json.string value
  | .texts values =>
    0x5B :: (List.intercalate [0x2C] (values.map Json.string) ++ [0x5D])
  | .count value => Decimal.ofNat value

/-- A named value. -/
def namedValue (name : String) (value : Bytes) : Bytes :=
  Json.string (Bytes.ofString name) ++ 0x3A :: value

/-- An entry as a line. -/
def Entry.line (entry : Entry) : Bytes :=
  let values :=
    namedValue "level" (Json.string (Bytes.ofString entry.level.name)) ::
    namedValue "msg" (Json.string (Bytes.ofString entry.message)) ::
    entry.details.map fun detail => namedValue detail.1 detail.2.render
  0x7B :: (List.intercalate [0x2C] values ++ [0x7D, 0x0A])

end BraceBalance.Log
