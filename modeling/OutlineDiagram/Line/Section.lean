/-
This file writes and reads the metadata section of a line. The section follows
the first separator and is a list of words: visibility tokens, the highlight
token, and ids. The first character of an id says whether it is a link out, a
link in or the bullet's own id; punctuation is no part of an id.
-/

import OutlineDiagram.Line.Basic
import OutlineDiagram.Text.Blank

namespace OutlineDiagram

open Text

/-! ### Ids -/

/-- The punctuation that an id does not keep. -/
def idPunctuation : List Char := "-=&/\\#,+()$~%.'\":*?<>\x7b\x7d".toList

/-- The characters of an id without its punctuation. -/
def bareId (token : List Char) : List Char :=
  token.filter fun character => !idPunctuation.contains character

namespace Metadata

/-! ### Reading -/

/-- The token that writes a highlight. -/
def highlightToken : String := "[!]"

/-- The metadata after an id token. The first character is read before punctuation is dropped,
and a token of punctuation alone says nothing. Of several own ids the last one counts. -/
def readId (metadata : Metadata) (token : List Char) : Metadata :=
  let id := String.ofList (bareId token)
  if id == "" then metadata
  else
    match token with
    | '>' :: _ => { metadata with idsOut := metadata.idsOut ++ [id] }
    | '<' :: _ => { metadata with idsIn := metadata.idsIn ++ [id] }
    | _ => { metadata with explicitId := some id }

/-- The metadata after one token. -/
def readToken (metadata : Metadata) (token : List Char) : Metadata :=
  match Visibility.ofToken? (String.ofList token) with
  | some visibility => { metadata with visibility := visibility }
  | none =>
    if String.ofList token == highlightToken then { metadata with isHighlighted := true }
    else metadata.readId token

/-- What a section says: its tokens, read in order. -/
def read (text : List Char) : Metadata := (words text).foldl readToken {}

/-! ### Writing -/

/-- The tokens that write the metadata, in the order in which they are written. -/
def tokens (metadata : Metadata) : List String :=
  (if metadata.visibility = .normal then [] else [metadata.visibility.token]) ++
    (if metadata.isHighlighted then [highlightToken] else []) ++
    metadata.ownId?.toList ++
    metadata.idsOut.map (">" ++ ·) ++
    metadata.idsIn.map ("<" ++ ·)

/-- The section with its separator; nothing where there is nothing to write. -/
def render (metadata : Metadata) : String :=
  if metadata.tokens.isEmpty then "" else "// " ++ " ".intercalate metadata.tokens

end Metadata

/-! ### The separator -/

/-- The text before the first separator, and the text after it where there is one. -/
def cutSection : List Char → List Char × Option (List Char)
  | [] => ([], none)
  | '/' :: '/' :: rest => ([], some rest)
  | first :: rest =>
    let cut := cutSection rest
    (first :: cut.1, cut.2)

/-- The text before and after the first separator, with the separator between them, is the
whole text. -/
theorem cutSection_append (text : List Char) :
    (match cutSection text with
      | (before, none) => before
      | (before, some after) => before ++ '/' :: '/' :: after) = text := by
  fun_induction cutSection text with
  | case1 => rfl
  | case2 rest => rfl
  | case3 first rest _ cut inductionHypothesis =>
    cases found : cutSection rest with
    | mk before after => cases after <;> simp_all [cut]

namespace Line

/-- The line as it was written up to its section. The separator is looked for after the first
character that is not blank, so that one at the very start is part of the bullet. -/
def head (line : Line) : List Char :=
  let text := line.text.toList
  let start := (leadingBlanks text).length + 1
  text.take start ++ (cutSection (text.drop start)).1

/-- The line with the metadata that it has now. What stands before the section is kept. -/
def render (line : Line) : String :=
  let kept := String.ofList (trimEnd line.head)
  let metadata := line.toMetadata.render
  if metadata == "" then kept else kept ++ " " ++ metadata

end Line

end OutlineDiagram
