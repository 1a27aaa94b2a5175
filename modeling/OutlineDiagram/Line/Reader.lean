/-
This file reads the lines of an outline. A line that is not blank, a comment or
part of a script is a bullet: indentation, a character for its kind, a label, and
after a separator its metadata.
-/

import OutlineDiagram.Ids.Supply
import OutlineDiagram.Line.Section

namespace OutlineDiagram

open Text

/-! ### Indentation -/

/-- The width of leading blanks when a tab is as wide as one unit of indentation. A unit of
negative width makes a tab vanish. -/
def leadingWidth (unit : Int) (text : List Char) : Int :=
  ((leadingBlanks text).map fun blank => if blank = '\t' then max unit 0 else 1).foldr (· + ·) 0

/-- The depth of a line: its full units of indentation, and one more for each blank of a unit
that is not full. -/
def measureDepth (unit : Int) (text : List Char) : Int :=
  let width := leadingWidth unit text
  width.fdiv unit + width.fmod unit

/-! ### Labels -/

/-- The label without the characters that would be markup, and without blanks around it. -/
def sanitizeLabel (label : List Char) : List Char :=
  trim (label.filter fun character => !(['&', '<', '>'].contains character))

/-! ### One line -/

/-- The line as it is read, with single quotes for double ones. -/
def withSingleQuotes (text : List Char) : List Char :=
  text.map fun character => if character = '"' then '\'' else character

/-- What a line is, by its first characters. -/
inductive LineShape where
  /-- Nothing but blanks. -/
  | blank
  /-- A comment. -/
  | comment
  /-- A line of a script. -/
  | script
  /-- A bullet, with the text that is left after trimming. -/
  | bullet (content : List Char)
  deriving DecidableEq, Repr

/-- The shape of a line. -/
def lineShape (text : List Char) : LineShape :=
  match trim (withSingleQuotes text) with
  | [] => .blank
  | '/' :: '/' :: _ => .comment
  | '$' :: _ => .script
  | content => .bullet content

/-- The kind that the first character of a bullet writes, and the text after it. Without such a
character the bullet is ordinary and all of the text is left. -/
def cutKind : List Char → BulletKind × List Char
  | [] => (.data, [])
  | first :: rest =>
    match BulletKind.ofMark? first with
    | some kind => (kind, rest)
    | none => (.data, first :: rest)

namespace Line

/-- The line is a bullet by its shape, so that its depth is measured and a placeholder drawn. -/
def hasBulletShape (text : String) : Bool :=
  match lineShape text.toList with
  | .bullet _ => true
  | _ => false

/-- The line that a text is, given the width of an indentation unit, the position of the line
and the placeholder to use if it is a bullet. -/
def read (unit : Int) (index : Int) (placeholder : String) (text : String) : Line :=
  match lineShape text.toList with
  | .blank => { text := text, index := index }
  | .comment => { text := text, index := index, isComment := true }
  | .script => { text := text, index := index, isScript := true }
  | .bullet content =>
    let bullet := cutKind content
    let cut := cutSection bullet.2
    { Metadata.read (cut.2.getD []) with
      text := text
      index := index
      depth := measureDepth unit (withSingleQuotes text.toList)
      kind := bullet.1
      label := String.ofList (sanitizeLabel cut.1)
      placeholderId := placeholder
      hasSection := cut.2.isSome }

/-- Reading a line keeps its text. -/
theorem text_read (unit index : Int) (placeholder text : String) :
    (read unit index placeholder text).text = text := by
  unfold read
  split <;> rfl

/-- Reading a line keeps its position. -/
theorem index_read (unit index : Int) (placeholder text : String) :
    (read unit index placeholder text).index = index := by
  unfold read
  split <;> rfl

/-! ### All lines -/

/-- One line read with ids from a supply. Only a bullet draws a placeholder. -/
def readNext (unit : Int) (index : Int) (text : String) (supply : IdSupply) : Line × IdSupply :=
  if hasBulletShape text then
    let drawn := supply.drawPlaceholder
    (read unit index drawn.1 text, drawn.2)
  else (read unit index "" text, supply)

theorem text_readNext (unit index : Int) (text : String) (supply : IdSupply) :
    (readNext unit index text supply).1.text = text := by
  unfold readNext
  split <;> exact text_read ..

theorem index_readNext (unit index : Int) (text : String) (supply : IdSupply) :
    (readNext unit index text supply).1.index = index := by
  unfold readNext
  split <;> exact index_read ..

/-- The lines from a position on, read in order with ids from a supply. -/
def readFrom (unit : Int) : Int → List String → IdSupply → List Line × IdSupply
  | _, [], supply => ([], supply)
  | index, text :: rest, supply =>
    let first := readNext unit index text supply
    let others := readFrom unit (index + 1) rest first.2
    (first.1 :: others.1, others.2)

/-- The lines of an outline, blank and comment lines included. -/
def readAll (unit : Int) (texts : List String) (supply : IdSupply) : List Line × IdSupply :=
  readFrom unit 0 texts supply

end Line

/-! ### Units that cannot be counted in -/

/-- The reason why an outline cannot be read. -/
inductive IndentError where
  /-- A depth would be measured in units of no width. -/
  | zeroUnit
  /-- The width of a unit does not fit a word of the machine. -/
  | oversizedUnit
  /-- The blanks of one unit do not fit the memory. -/
  | unwieldyUnit
  deriving DecidableEq, Repr

/-- What is reported of an error. -/
def IndentError.message : IndentError → String
  | .zeroUnit => "integer division or modulo by zero"
  | .oversizedUnit => "cannot fit 'int' into an index-sized integer"
  | .unwieldyUnit => ""

/-- What is wrong with a width of an indentation unit. -/
def unitError? (unit : Int) : Option IndentError :=
  if unit = 0 then some .zeroUnit
  else if unit < -(Int.pow 2 63) ∨ Int.pow 2 63 ≤ unit then some .oversizedUnit
  else if Int.pow 2 36 ≤ unit then some .unwieldyUnit
  else none

/-- The depth of a line, refused for a unit that cannot be counted in. -/
def measureDepth? (unit : Int) (text : List Char) : Except IndentError Int :=
  match unitError? unit with
  | some error => .error error
  | none => .ok (measureDepth unit text)

/-- What is wrong with a unit if one of the lines is a bullet to be measured in it. -/
def bulletUnitError? (unit : Int) (texts : List String) : Option IndentError :=
  if texts.any Line.hasBulletShape then unitError? unit else none

/-- The lines of an outline, refused when a bullet is to be measured in a unit that cannot be
counted in. -/
def Line.readAll? (unit : Int) (texts : List String) (supply : IdSupply) :
    Except IndentError (List Line × IdSupply) :=
  match bulletUnitError? unit texts with
  | some error => .error error
  | none => .ok (Line.readAll unit texts supply)

end OutlineDiagram
