/-
  JSON documents of the shape a report has: an object whose fields hold scalars or lists of
  flat records.  Documents are written with two blanks of indentation and a final newline;
  an empty list is written as `[]`.
-/
import BraceBalance.Text.Decimal
import BraceBalance.Text.Hex

set_option autoImplicit false

namespace BraceBalance.Json

/-! ## Documents -/

/-- A number or a text. -/
inductive Scalar where
  | int (n : Int)
  | text (bytes : Bytes)
  deriving DecidableEq, Repr

/-- A flat object: its fields in order. -/
abbrev Record := List (String × Scalar)

/-- What a field of a document holds. -/
inductive Value where
  | scalar (s : Scalar)
  | records (entries : List Record)
  deriving DecidableEq, Repr

/-- A document: its fields in order. -/
abbrev Document := List (String × Value)

/-! ## Strings -/

/-- A character inside a string.  Besides the characters that JSON itself reserves, those
that a web page could take for markup or for a line end are escaped. -/
def escaped (c : Char) : List Char :=
  if c = '"' then ['\\', '"']
  else if c = '\\' then ['\\', '\\']
  else if c = '\x08' then ['\\', 'b']
  else if c = '\x0C' then ['\\', 'f']
  else if c = '\n' then ['\\', 'n']
  else if c = '\r' then ['\\', 'r']
  else if c = '\t' then ['\\', 't']
  else if c.toNat < 0x20 || c = '<' || c = '>' || c = '&' || c = '\u2028' ||
      c = '\u2029' then
    '\\' :: 'u' :: Hex.ofNat 4 c.toNat
  else [c]

/-- A string; a byte that is not UTF-8 is written as U+FFFD. -/
def string (bytes : Bytes) : Bytes :=
  Utf8.encode ('"' :: ((Utf8.replacing bytes).flatMap escaped ++ ['"']))

/-! ## Layout -/

/-- The start of a line at a depth of nesting. -/
def indent (depth : Nat) : Bytes := List.replicate (2 * depth) 0x20

/-- Items between brackets, one a line, at one more level of nesting. -/
def block (opening closing : UInt8) (depth : Nat) (items : List Bytes) : Bytes :=
  let lines := items.map (indent (depth + 1) ++ ·)
  opening :: 0x0A :: (List.intercalate [0x2C, 0x0A] lines ++ 0x0A :: indent depth ++ [closing])

/-- An object of written values. -/
def object (depth : Nat) (fields : List (String × Bytes)) : Bytes :=
  block 0x7B 0x7D depth
    (fields.map fun field => string (Bytes.ofString field.1) ++ [0x3A, 0x20] ++ field.2)

/-- A list of written values. -/
def array (depth : Nat) (items : List Bytes) : Bytes :=
  if items.isEmpty then [0x5B, 0x5D] else block 0x5B 0x5D depth items

/-- A scalar. -/
def Scalar.render : Scalar → Bytes
  | .int n => Decimal.ofInt n
  | .text bytes => string bytes

/-- A record at a depth of nesting. -/
def Record.render (depth : Nat) (record : Record) : Bytes :=
  object depth (record.map fun field => (field.1, field.2.render))

/-- The value of a field of a document. -/
def Value.render : Value → Bytes
  | .scalar s => s.render
  | .records entries => array 1 (entries.map (Record.render 2))

/-- A document, with a newline behind it. -/
def Document.render (document : Document) : Bytes :=
  object 0 (document.map fun field => (field.1, field.2.render)) ++ [0x0A]

end BraceBalance.Json
