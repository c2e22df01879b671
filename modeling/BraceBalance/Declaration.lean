/-
  Named function declarations in the text of a line.

  A declaration site is the keyword, not preceded by a word character, then blanks, a name
  of word characters and an opening parenthesis, which blanks may precede.  The name that is
  reported for a line is the one behind the first keyword that any name follows at all,
  whether or not that keyword starts a declaration site.
-/
import BraceBalance.Unicode.Class

set_option autoImplicit false

namespace BraceBalance.Declaration

open Unicode

/-- The word that introduces a declaration. -/
def keyword : List Char := ['f', 'u', 'n', 'c', 't', 'i', 'o', 'n']

/-- If the text starts with the keyword, blanks and a name: the whole name, and the text
behind it. -/
def namedAt? (text : List Char) : Option (List Char × List Char) :=
  match keyword.isPrefixOf? text with
  | none => none
  | some rest =>
    let behind := rest.dropWhile isBlank
    let name := behind.takeWhile isWord
    if (rest.takeWhile isBlank).isEmpty || name.isEmpty then none
    else some (name, behind.dropWhile isWord)

/-- Whether the text starts with keyword, blanks, name, optional blanks and parenthesis. -/
def startsAt (text : List Char) : Bool :=
  match namedAt? text with
  | none => false
  | some (_, rest) => (rest.dropWhile isBlank).head? = some '('

/-- Whether a declaration site stands in the text, `inWord` telling whether a word character
precedes the text. -/
def occursBehind (inWord : Bool) : List Char → Bool
  | [] => false
  | c :: rest =>
    if !inWord && startsAt (c :: rest) then true else occursBehind (isWord c) rest

/-- Whether the text holds a declaration site. -/
def occursIn (text : List Char) : Bool := occursBehind false text

/-- The name behind the first keyword that a name follows. -/
def name? : List Char → Option (List Char)
  | [] => none
  | c :: rest =>
    match namedAt? (c :: rest) with
    | some (name, _) => some name
    | none => name? rest

/-- The name reported for a text that holds a declaration site. -/
def detect? (text : List Char) : Option (List Char) :=
  if occursIn text then name? text else none

end BraceBalance.Declaration
