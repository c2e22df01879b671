/-
  Texts in quotation marks, as error messages show them: printable characters as they are,
  everything else escaped, so that any byte string can be told from its quoted form.
-/
import BraceBalance.Text.Hex
import BraceBalance.Text.Utf8
import BraceBalance.Unicode.Class

set_option autoImplicit false

namespace BraceBalance.Quoted

/-- The letter that escapes a control character, for those that have one. -/
def controlLetter? (c : Char) : Option Char :=
  if c = '\x07' then some 'a'
  else if c = '\x08' then some 'b'
  else if c = '\x0C' then some 'f'
  else if c = '\n' then some 'n'
  else if c = '\r' then some 'r'
  else if c = '\t' then some 't'
  else if c = '\x0B' then some 'v'
  else none

/-- A character between quotation marks `mark`. -/
def escaped (mark c : Char) : List Char :=
  if c = mark || c = '\\' then ['\\', c]
  else if Unicode.isPrintable c then [c]
  else
    match controlLetter? c with
    | some letter => ['\\', letter]
    | none =>
      if c.toNat < 0x20 || c.toNat = 0x7F then '\\' :: 'x' :: Hex.ofNat 2 c.toNat
      else if c.toNat < 0x10000 then '\\' :: 'u' :: Hex.ofNat 4 c.toNat
      else '\\' :: 'U' :: Hex.ofNat 8 c.toNat

/-- A piece of a byte string between double quotation marks. -/
def escapedPiece : Utf8.Piece → List Char
  | .char c => escaped '"' c
  | .stray b => '\\' :: 'x' :: Hex.ofNat 2 b.toNat

/-- A byte string in double quotation marks. -/
def text (bytes : Bytes) : Bytes :=
  Utf8.encode ('"' :: ((Utf8.pieces bytes).flatMap escapedPiece ++ ['"']))

/-- A character in single quotation marks. -/
def character (c : Char) : Bytes := Utf8.encode ('\x27' :: (escaped '\x27' c ++ ['\x27']))

end BraceBalance.Quoted
