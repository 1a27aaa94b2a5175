/-
This file reads whole numbers written in decimal digits. Digits of every script
count, each script having its ten digits in a row from its zero; one underscore
may stand between two digits. A text of too many digits writes no number, so that
reading a number takes no long time.
-/

import OutlineDiagram.Text.Blank

namespace OutlineDiagram.Text

/-! ### Decimal digits -/

/-- The code points of the digit zero in every script that has decimal digits, as of Unicode 14. -/
def zeroPoints : List Nat :=
  [0x30, 0x660, 0x6F0, 0x7C0, 0x966, 0x9E6, 0xA66, 0xAE6, 0xB66, 0xBE6, 0xC66, 0xCE6, 0xD66,
    0xDE6, 0xE50, 0xED0, 0xF20, 0x1040, 0x1090, 0x17E0, 0x1810, 0x1946, 0x19D0, 0x1A80, 0x1A90,
    0x1B50, 0x1BB0, 0x1C40, 0x1C50, 0xA620, 0xA8D0, 0xA900, 0xA9D0, 0xA9F0, 0xAA50, 0xABF0,
    0xFF10, 0x104A0, 0x10D30, 0x11066, 0x110F0, 0x11136, 0x111D0, 0x112F0, 0x11450, 0x114D0,
    0x11650, 0x116C0, 0x11730, 0x118E0, 0x11950, 0x11C50, 0x11D50, 0x11DA0, 0x16A60, 0x16AC0,
    0x16B50, 0x1D7CE, 0x1D7D8, 0x1D7E2, 0x1D7EC, 0x1D7F6, 0x1E140, 0x1E2F0, 0x1E950, 0x1FBF0]

/-- The value of a decimal digit of any script. -/
def digitValue? (character : Char) : Option Nat :=
  (zeroPoints.find? fun origin => origin ≤ character.toNat && character.toNat < origin + 10).map
    fun origin => character.toNat - origin

/-! ### Whole numbers -/

/-- Digits in a given base, one underscore allowed between two of them. The argument before the
text is the value so far; a text that ends or starts without a digit is no number. -/
def readDigits (digit : Char → Option Nat) (base : Nat) : Nat → List Char → Option Nat
  | _, [] => none
  | value, [last] => (digit last).map fun unit => value * base + unit
  | value, first :: '_' :: rest =>
    (digit first).bind fun unit => readDigits digit base (value * base + unit) rest
  | value, first :: rest =>
    (digit first).bind fun unit => readDigits digit base (value * base + unit) rest

/-- A sign and what follows it. Without a sign the number is positive. -/
def readSign : List Char → Bool × List Char
  | '-' :: rest => (true, rest)
  | '+' :: rest => (false, rest)
  | text => (false, text)

/-- The largest number of digits that a number may be written with. -/
def digitLimit : Nat := 4300

/-- The character is white space around a number: blank and no separator control. -/
def isWhiteSpace (character : Char) : Bool :=
  isBlank character && !(0x1C ≤ character.toNat && character.toNat ≤ 0x1F)

/-- The text without white space at either end. -/
def trimWhiteSpace (text : List Char) : List Char :=
  ((text.dropWhile isWhiteSpace).reverse.dropWhile isWhiteSpace).reverse

/-- A whole number with white space around it, an optional sign and decimal digits of any script,
not too many of them. -/
def readInteger (text : List Char) : Option Int :=
  let signed := readSign (trimWhiteSpace text)
  if digitLimit < (signed.2.filter (· != '_')).length then none
  else
    (readDigits digitValue? 10 0 signed.2).map fun value =>
      if signed.1 then -(value : Int) else (value : Int)

end OutlineDiagram.Text
