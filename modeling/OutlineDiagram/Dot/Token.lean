/-
This file writes ids as words of the DOT language: bare where the id is a plain
identifier, quoted otherwise.
-/

import OutlineDiagram.Dot.Label

namespace OutlineDiagram.Dot

/-- A plain identifier may start with the character. -/
def startsIdentifier (character : Char) : Bool := character.isAlpha || character == '_'

/-- A plain identifier may go on with the character. -/
def continuesIdentifier (character : Char) : Bool := character.isAlphanum || character == '_'

/-- The text goes on with characters of an identifier, up to its end or to one last newline. -/
def isIdentifierTail : List Char → Bool
  | [] => true
  | ['\n'] => true
  | first :: rest => continuesIdentifier first && isIdentifierTail rest

/-- The text is a plain identifier, perhaps with one newline after it. -/
def isPlainId : List Char → Bool
  | [] => false
  | first :: rest => startsIdentifier first && isIdentifierTail rest

/-- An id as a word of the language. -/
def quoteId (id : String) : String :=
  if isPlainId id.toList then id
  else "\"" ++ String.ofList (escape id.toList) ++ "\""

end OutlineDiagram.Dot
