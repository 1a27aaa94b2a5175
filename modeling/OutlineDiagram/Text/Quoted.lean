/-
This file writes texts so that every character of them can be seen. A text stands
between single quotes, or between double ones when that spares it escapes;
characters that would not show are written as numbers.
-/

import OutlineDiagram.Ids.IdSet
import OutlineDiagram.Text.Printable

namespace OutlineDiagram.Text

/-- The digits of a number in lower-case hexadecimal, with zeros before them up to a width. -/
def hexDigits (width number : Nat) : List Char :=
  let digits := Nat.toDigits 16 number
  List.replicate (width - digits.length) '0' ++ digits

/-- A character that does not show, as a number of two, four or eight digits. -/
def numberedChar (character : Char) : List Char :=
  let point := character.toNat
  if point < 0x100 then '\\' :: 'x' :: hexDigits 2 point
  else if point < 0x10000 then '\\' :: 'u' :: hexDigits 4 point
  else '\\' :: 'U' :: hexDigits 8 point

/-- A character between two quotes. -/
def shownChar (quote character : Char) : List Char :=
  if character = quote ∨ character = '\\' then ['\\', character]
  else if character = '\n' then ['\\', 'n']
  else if character = '\r' then ['\\', 'r']
  else if character = '\t' then ['\\', 't']
  else if isPrintable character then [character]
  else numberedChar character

/-- The quote around a text: a double one if the text has single quotes and no double ones. -/
def chooseQuote (text : List Char) : Char :=
  if text.contains '\'' && !text.contains '"' then '"' else '\''

/-- A text between quotes. -/
def quoted (text : String) : String :=
  let quote := chooseQuote text.toList
  String.ofList (quote :: (text.toList.flatMap (shownChar quote) ++ [quote]))

/-- A list of texts between brackets. -/
def quotedList (texts : List String) : String := "[" ++ ", ".intercalate (texts.map quoted) ++ "]"

end OutlineDiagram.Text

namespace OutlineDiagram.IdSet

/-- A set of ids as a text in which every id can be told from the others. -/
def describe (ids : IdSet) : String := "IdSet(" ++ Text.quotedList ids.toList ++ ")"

end OutlineDiagram.IdSet
