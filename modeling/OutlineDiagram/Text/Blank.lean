/-
This file says which characters are blank and cuts text at them. Every function
works on a list of characters, so that a statement about text is an induction
over the list. Blank are the characters of the Unicode property White_Space and
the four separator controls U+001C to U+001F.
-/

namespace OutlineDiagram.Text

/-! ### Blank characters -/

/-- The blank characters, as ranges of code points with both ends included. -/
def blankRanges : List (Nat × Nat) :=
  [(0x0009, 0x000D), (0x001C, 0x0020), (0x0085, 0x0085), (0x00A0, 0x00A0), (0x1680, 0x1680),
    (0x2000, 0x200A), (0x2028, 0x2029), (0x202F, 0x202F), (0x205F, 0x205F), (0x3000, 0x3000)]

/-- A character is blank when its code point lies in one of the ranges. -/
def isBlank (character : Char) : Bool :=
  blankRanges.any fun range => range.1 ≤ character.toNat && character.toNat ≤ range.2

/-! ### Trimming -/

/-- The text without the blanks before its first other character. -/
def trimStart (text : List Char) : List Char := text.dropWhile isBlank

/-- The text without the blanks after its last other character. -/
def trimEnd (text : List Char) : List Char := (text.reverse.dropWhile isBlank).reverse

/-- The text without blanks at either end. -/
def trim (text : List Char) : List Char := trimEnd (trimStart text)

/-- The blanks before the first other character. -/
def leadingBlanks (text : List Char) : List Char := text.takeWhile isBlank

/-- Nothing is lost between the leading blanks and the rest. -/
theorem leadingBlanks_append_trimStart (text : List Char) :
    leadingBlanks text ++ trimStart text = text :=
  List.takeWhile_append_dropWhile

/-- A string without blanks at either end. -/
def trimString (text : String) : String := String.ofList (trim text.toList)

/-! ### Words -/

/-- The text goes on with a character that does not cut words apart. -/
def startsWord (cuts : Char → Bool) : List Char → Bool
  | [] => false
  | next :: _ => !cuts next

/-- The words with one more character before the first of them. -/
def extendFirst (first : Char) : List (List Char) → List (List Char)
  | [] => [[first]]
  | word :: others => (first :: word) :: others

/-- The maximal runs of characters that do not cut words apart, in order. -/
def wordsBy (cuts : Char → Bool) : List Char → List (List Char)
  | [] => []
  | first :: rest =>
    if cuts first then wordsBy cuts rest
    else if startsWord cuts rest then extendFirst first (wordsBy cuts rest)
    else [first] :: wordsBy cuts rest

/-- The maximal runs of characters that are not blank, in order. -/
def words (text : List Char) : List (List Char) := wordsBy isBlank text

end OutlineDiagram.Text
