/-
This file cuts text into lines. A document is cut at every line boundary that
Unicode knows, the pair of carriage return and newline counting as one; a text
file is read with all three newline conventions written as one newline.
-/

namespace OutlineDiagram.Text

/-! ### Line boundaries -/

/-- The characters that end a line of a document. -/
def lineBoundaries : List Char :=
  ['\n', '\r', '\x0b', '\x0c', '\x1c', '\x1d', '\x1e', '\u0085', '\u2028', '\u2029']

/-- A character that ends a line of a document. -/
def isLineBoundary (character : Char) : Bool := lineBoundaries.contains character

/-- The lines before each boundary and the text after the last one, still to be continued. -/
def cutLines : List Char → List (List Char) × List Char
  | [] => ([], [])
  | '\r' :: '\n' :: rest =>
    let after := cutLines rest
    ([] :: after.1, after.2)
  | first :: rest =>
    let after := cutLines rest
    if isLineBoundary first then ([] :: after.1, after.2)
    else
      match after.1 with
      | [] => ([], first :: after.2)
      | line :: lines => ((first :: line) :: lines, after.2)

/-- The lines of a document. The text after the last boundary is a line unless it is empty. -/
def lines (text : List Char) : List (List Char) :=
  let cut := cutLines text
  if cut.2.isEmpty then cut.1 else cut.1 ++ [cut.2]

/-! ### Newline conventions -/

/-- The text with a carriage return, alone or before a newline, written as a newline. -/
def unifyNewlines : List Char → List Char
  | [] => []
  | '\r' :: '\n' :: rest => '\n' :: unifyNewlines rest
  | first :: rest => (if first = '\r' then '\n' else first) :: unifyNewlines rest

end OutlineDiagram.Text
