/-
This file holds an outline that can be edited. Every line of the text has an
entry. Blank and script lines are kept as they are; the others keep what was read
from them, and once one is edited it is written anew when the outline is written.
-/

import OutlineDiagram.Line.Reader
import OutlineDiagram.Text.LineBreak

namespace OutlineDiagram

/-! ### Entries -/

/-- One line of a document. -/
inductive Entry where
  /-- A line of blanks. -/
  | blank (text : String)
  /-- A line of a script. -/
  | script (text : String)
  /-- Any other line as it was read, with the edits made to it since. -/
  | parsed (line : Line) (isEdited : Bool)
  deriving DecidableEq, Repr, Inhabited

namespace Entry

/-- The line that was read, where there is one. -/
def line? : Entry → Option Line
  | parsed line _ => some line
  | _ => none

/-- The line was edited. -/
def wasEdited : Entry → Bool
  | parsed _ isEdited => isEdited
  | _ => false

/-- The line as it stood in the text that was read. -/
def asRead : Entry → String
  | blank text => text
  | script text => text
  | parsed line _ => line.text

/-- The line as it is written. An edited bullet is written anew, unless it has no section and
needs none. -/
def render : Entry → String
  | blank text => text
  | script text => text
  | parsed line isEdited =>
    if isEdited && line.isBullet && (line.hasSection || line.toMetadata.render != "") then
      line.render
    else line.text

end Entry

/-! ### Documents -/

/-- An outline that can be edited. -/
structure Document where
  /-- The lines, in order. -/
  entries : List Entry
  /-- The text ends with a newline. -/
  endsWithNewline : Bool
  /-- Where ids for further bullets come from. -/
  supply : IdSupply

namespace Document

open Text

/-- The entry of a line of text, given the width of an indentation unit and its position. -/
def readEntry (unit : Int) (index : Int) (text : String) (supply : IdSupply) :
    Entry × IdSupply :=
  match trim text.toList with
  | [] => (.blank text, supply)
  | '$' :: _ => (.script text, supply)
  | _ =>
    let read := Line.readNext unit index text supply
    (.parsed read.1 false, read.2)

/-- The entries of lines of text from a position on. -/
def readEntries (unit : Int) : Int → List String → IdSupply → List Entry × IdSupply
  | _, [], supply => ([], supply)
  | index, text :: rest, supply =>
    let first := readEntry unit index text supply
    let others := readEntries unit (index + 1) rest first.2
    (first.1 :: others.1, others.2)

theorem asRead_readEntry (unit index : Int) (text : String) (supply : IdSupply) :
    (readEntry unit index text supply).1.asRead = text := by
  unfold readEntry
  split
  · rfl
  · rfl
  · exact Line.text_readNext ..

/-- The entries hold the lines of text, in order. -/
theorem map_asRead_readEntries (unit index : Int) (texts : List String) (supply : IdSupply) :
    (readEntries unit index texts supply).1.map Entry.asRead = texts := by
  induction texts generalizing index supply with
  | nil => rfl
  | cons text rest inductionHypothesis =>
    simp only [readEntries, List.map_cons, asRead_readEntry, inductionHypothesis]

/-- The lines of a text. -/
def linesOf (text : String) : List String := (lines text.toList).map String.ofList

/-- The document of a text. -/
def ofText (unit : Int) (supply : IdSupply) (text : String) : Document :=
  let read := readEntries unit 0 (linesOf text) supply
  { entries := read.1
    endsWithNewline := text.toList.getLast? == some '\n'
    supply := read.2 }

/-- The document of a text, refused when a bullet is to be measured in a unit that cannot be
counted in. -/
def ofText? (unit : Int) (supply : IdSupply) (text : String) : Except IndentError Document :=
  match bulletUnitError? unit (linesOf text) with
  | some error => .error error
  | none => .ok (ofText unit supply text)

/-! ### Views -/

/-- The lines that were read: all but blank and script lines. -/
def lines (document : Document) : List Line := document.entries.filterMap Entry.line?

/-- The bullets. -/
def bullets (document : Document) : List Line := bulletsOf document.lines

/-- The script lines without blanks around them, each with its position. -/
def scripts (document : Document) : List (Nat × String) :=
  document.entries.zipIdx.filterMap fun place =>
    match place.1 with
    | .script text => some (place.2, trimString text)
    | _ => none

/-- Some line was edited. -/
def isEdited (document : Document) : Bool := document.entries.any Entry.wasEdited

/-- The lines as they are written. -/
def renderedLines (document : Document) : List String := document.entries.map Entry.render

/-- The text of the document. -/
def render (document : Document) : String :=
  "\n".intercalate document.renderedLines ++ if document.endsWithNewline then "\n" else ""

/-! ### Looking up -/

/-- The line at a position, counted from zero. -/
def lineAt? (document : Document) (index : Int) : Option Line :=
  document.lines.find? fun line => line.index == index

/-- The bullet at a position. -/
def bulletAt? (document : Document) (index : Int) : Option Line :=
  (document.lineAt? index).filter Line.isBullet

/-- The bullet with an id; of several the last one. -/
def findById? (document : Document) (id : String) : Option Line :=
  document.bullets.reverse.find? fun bullet => bullet.id == id

end Document

/-- The reason why an edit cannot be made. -/
inductive EditError where
  /-- There is no bullet at the line with this number, counted from one. -/
  | noBullet (number : Int)
  /-- No unused id is left to give to a bullet. -/
  | idsUsedUp
  deriving DecidableEq, Repr

namespace EditError

/-- What is reported to whoever asked for the edit. -/
def message : EditError → String
  | noBullet number => "No bullet at line " ++ toString number
  | idsUsedUp => "No unused id is left"

end EditError

namespace Document

/-- The bullet on the line with a number, counted from one. -/
def bulletOn (document : Document) (number : Int) : Except EditError Line :=
  match document.bulletAt? (number - 1) with
  | some bullet => .ok bullet
  | none => .error (.noBullet number)

end Document

end OutlineDiagram
