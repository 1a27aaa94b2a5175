/-
This file writes labels as the content of double-quoted strings. A long label is
cut into lines of roughly equal length; a line ends only after a character where a
reader would expect it to. Because backslashes and quotes of the label are escaped,
the only other escapes in the text are the inserted line ends.
-/

import OutlineDiagram.Double
import OutlineDiagram.Text.Blank

namespace OutlineDiagram.Dot

open Text

/-! ### Escapes -/

/-- A character of a label inside a quoted string. -/
def escapeChar : Char → List Char
  | '\\' => ['\\', '\\']
  | '"' => ['\\', '"']
  | character => [character]

/-- A label inside a quoted string. -/
def escape (text : List Char) : List Char := text.flatMap escapeChar

/-! ### Lines of a label -/

/-- The number of lines that a text of some length needs at a given width, the last one perhaps
not full. -/
def lineCount (length : Nat) (width : Int) : Int := -(-(length : Int)).fdiv width

/-- A line may end after the character. -/
def endsLine (character : Char) : Bool := [' ', '\t', '-', '\\', '/'].contains character

/-- The escaped text from a position on with line ends put in. A line ends at the first
character that allows it from a multiple of the step on, and each line end raises the multiple. -/
def wrapFrom (step : Nat) : (position multiple : Nat) → List Char → List Char
  | _, _, [] => []
  | position, multiple, first :: rest =>
    if endsLine first && multiple * step ≤ position then
      escapeChar first ++ '\\' :: 'n' :: wrapFrom step (position + 1) (multiple + 1) rest
    else escapeChar first ++ wrapFrom step (position + 1) multiple rest

/-- The label as the content of a quoted string with line ends. A label that fits one line is
only escaped. -/
def wrap (width : Int) (label : List Char) : List Char :=
  let text := trim label
  let count := lineCount text.length width
  if count ≤ 1 then escape text
  else wrapFrom (roundQuotient text.length count.toNat) 0 1 text

/-- The reason why a label cannot be cut into lines. -/
inductive WrapError where
  /-- The lines are to have no characters. -/
  | zeroWidth
  deriving DecidableEq, Repr

/-- The label with line ends, refused for lines of no characters. -/
def wrap? (width : Int) (label : List Char) : Except WrapError (List Char) :=
  if width = 0 then .error .zeroWidth else .ok (wrap width label)

/-! ### Font size -/

/-- The font size of a node with nothing below it. -/
def baseFontSize : Int := 14

/-- For each further point of font size, the least number of nodes below that gives it. The
curve is `14 + 50 * arctan (size / 50)`, rounded to the nearest point. -/
def fontSteps : List Int :=
  [1, 2, 3, 4, 5, 6, 7, 8, 9, 10, 11, 12, 13, 14, 15, 17, 18, 19, 20, 21, 22, 23, 25, 26, 27,
    28, 30, 31, 33, 34, 35, 37, 39, 40, 42, 43, 45, 47, 49, 51, 53, 55, 57, 60, 62, 65, 68, 70,
    73, 77, 80, 84, 88, 92, 96, 101, 106, 112, 118, 125, 133, 141, 151, 162, 174, 188, 204, 223,
    246, 274, 309, 353, 412, 495, 618, 822, 1225, 2404, 62789]

/-- The points that a number of nodes below adds to the font size. -/
def fontPoints (size : Int) : Int := ((fontSteps.filter (· ≤ size)).length : Nat)

/-- The font size of a node by the number of nodes below it. The curve is odd about its base. -/
def fontSize (size : Int) : Int := baseFontSize + fontPoints size - fontPoints (-size)

/-- The reason why a font size cannot be worked out. -/
inductive FontError where
  /-- A fiftieth of the number of nodes is too large for a floating-point number. -/
  | oversized
  deriving DecidableEq, Repr

/-- What is reported of an error. -/
def FontError.message : FontError → String
  | .oversized => "integer division result too large for a float"

/-- The font size of a node, refused for a number of nodes that cannot be worked with. -/
def fontSize? (size : Int) : Except FontError Int :=
  match Double.nearest size.natAbs 50 with
  | .infinite => .error .oversized
  | .finite .. => .ok (fontSize size)

end OutlineDiagram.Dot
