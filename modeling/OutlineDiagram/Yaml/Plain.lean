/-
This file reads texts of YAML that stand without quotes, and says which values they
write: nothing, truth values, whole numbers in four notations, floating-point
numbers and dates. Any other text is a string. A text can have the form of a number
or of a date and write none; then it has no value.
-/

import OutlineDiagram.Double
import OutlineDiagram.Text.Digit
import OutlineDiagram.Yaml.Date
import OutlineDiagram.Yaml.Quoted
import OutlineDiagram.Yaml.Value

namespace OutlineDiagram.Yaml

/-! ### Reading -/

/-- The characters that have a meaning between the brackets of a flow collection. -/
def isFlowMark (character : Char) : Bool := [',', '[', ']', '\x7b', '\x7d'].contains character

/-- A text without quotes may start here. -/
def startsPlain (inFlow : Bool) : List Char → Bool
  | [] => false
  | first :: rest =>
    if isGap first then false
    else if ['-', '?', ':'].contains first then
      !atGap rest && (first == '-' || !inFlow)
    else !(",[]\x7b\x7d#&*!|>'\"%@`".toList.contains first)

/-- A word of a text without quotes ends before the character. -/
def endsPlain (inFlow : Bool) (first : Char) (rest : List Char) : Bool :=
  isGap first ||
    (first == ':' && (atGap rest || (inFlow && rest.head?.any isFlowMark))) ||
    (inFlow && (first == '?' || isFlowMark first))

/-- The word that a text starts with, and the rest. -/
def plainWord (inFlow : Bool) : List Char → List Char × List Char
  | [] => ([], [])
  | first :: rest =>
    if endsPlain inFlow first rest then ([], first :: rest)
    else
      let word := plainWord inFlow rest
      (first :: word.1, word.2)

/-- What lies between two words. -/
structure Gap where
  /-- The gap as it is read; empty where the text ends. -/
  text : List Char
  /-- The number of spaces before the next word, where it is on a new line. -/
  column? : Option Nat
  /-- What follows the gap. -/
  rest : List Char
  deriving Repr

/-- The empty lines at the start of a text, the number of spaces before what follows them, and
the rest. None in the first place where a line separates documents. -/
def plainBreaks : (column : Nat) → List Char → Option (List Char) × Nat × List Char
  | column, [] => (some [], column, [])
  | column, first :: rest =>
    if first = ' ' then plainBreaks (column + 1) rest
    else if isBreak first then
      if atSeparator rest then (none, 0, rest)
      else
        let found := plainBreaks 0 rest
        let ended := if first = '\u2028' ∨ first = '\u2029' then first else '\n'
        (found.1.map (ended :: ·), found.2)
    else (some [], column, first :: rest)

/-- The gap that a text starts with. -/
def plainGap (text : List Char) : Gap :=
  let spaces := text.takeWhile (· == ' ')
  let later := text.dropWhile (· == ' ')
  match takeBreak later with
  | none => ⟨spaces, none, later⟩
  | some (ended, after) =>
    if atSeparator after then ⟨[], some 0, after⟩
    else
      let found := plainBreaks 0 after
      match found.1 with
      | none => ⟨[], some 0, found.2.2⟩
      | some others => ⟨foldBreaks ended others, some found.2.1, found.2.2⟩

/-- A text without quotes, whether a line ended after its last word, and the rest. The text ends
before a comment and, outside of brackets, before a line that is not indented enough. -/
def readPlain (inFlow : Bool) (indent : Int) :
    (fuel : Nat) → List Char → List Char × Bool × List Char
  | 0, text => ([], false, text)
  | fuel + 1, text =>
    let word := plainWord inFlow text
    if word.1.isEmpty then ([], false, text)
    else
      let gap := plainGap word.2
      let isOutside := !inFlow && gap.column?.any fun column => column < indent
      if gap.text.isEmpty || gap.rest.head? == some '#' || isOutside ||
          (plainWord inFlow gap.rest).1.isEmpty then
        (word.1, gap.column?.isSome, gap.rest)
      else
        let later := readPlain inFlow indent fuel gap.rest
        (word.1 ++ gap.text ++ later.1, later.2)

/-! ### Whole numbers -/

/-- The text without underscores. -/
def withoutUnderscores (text : List Char) : List Char := text.filter (· != '_')

/-- The character is a digit of a base. -/
def isDigitOf (base : Nat) (character : Char) : Bool :=
  (hexValue? character).any fun value => value < base

/-- The value of a row of digits of a base. -/
def digitsValue (base : Nat) (digits : List Char) : Nat :=
  digits.foldl (fun value digit => value * base + (hexValue? digit).getD 0) 0

/-- The parts of a text between colons. -/
def colonParts (text : List Char) : List (List Char) :=
  match text with
  | [] => [[]]
  | first :: rest =>
    if first = ':' then [] :: colonParts rest
    else
      match colonParts rest with
      | [] => [[first]]
      | part :: others => (first :: part) :: others

/-- A part after a colon: one digit, or two of which the first is below six. -/
def isSixtieth : List Char → Bool
  | [unit] => unit.isDigit
  | [ten, unit] => '0' ≤ ten && ten ≤ '5' && unit.isDigit
  | _ => false

/-- The digits of a part, underscores allowed after the first one. -/
def isDigitRun : List Char → Bool
  | [] => false
  | first :: rest => first.isDigit && rest.all fun digit => digit.isDigit || digit == '_'

/-- The whole number that any number of digits in a base write, underscores allowed among them.
None where there is another character or nothing at all. -/
def baseInteger? (base : Nat) (digits : List Char) : Option (Except ReadError Nat) :=
  if digits.isEmpty || !digits.all fun digit => digit == '_' || isDigitOf base digit then none
  else
    match withoutUnderscores digits with
    | [] => some (.error (.noDigits base))
    | written => some (.ok (digitsValue base written))

/-- The value of a part in base ten, if it does not have too many digits. -/
def decimalPart (part : List Char) : Except ReadError Nat :=
  let digits := withoutUnderscores part
  if Text.digitLimit < digits.length then .error (.tooManyDigits digits.length)
  else .ok (digitsValue 10 digits)

/-- The whole number that a text without sign writes: with `0b` in base two, with `0x` in base
sixteen, with another zero in front in base eight, with colons in base sixty, else in base ten. -/
def unsignedInteger? (text : List Char) : Option (Except ReadError Nat) :=
  match text with
  | ['0'] => some (.ok 0)
  | '0' :: 'b' :: digits => baseInteger? 2 digits
  | '0' :: 'x' :: digits => baseInteger? 16 digits
  | '0' :: _ => baseInteger? 8 text
  | _ =>
    match colonParts text with
    | [] => none
    | head :: others =>
      if isDigitRun head && others.all isSixtieth then
        some ((decimalPart head).map fun value =>
          others.foldl (fun sum part => sum * 60 + digitsValue 10 part) value)
      else none

/-- The whole number that a text writes. -/
def plainInteger? (text : List Char) : Option (Except ReadError Int) :=
  let signed := Text.readSign text
  (unsignedInteger? signed.2).map fun read =>
    read.map fun value => if signed.1 then -(value : Int) else (value : Int)

/-! ### Floating-point numbers -/

/-- What a number with a sign is as far as it can stand for a whole number. -/
def FloatNumber.ofDouble (isNegative : Bool) (size : Double) : FloatNumber :=
  match size, size.whole? with
  | .infinite, _ => notFinite
  | _, some value => whole (if isNegative then -(value : Int) else (value : Int))
  | _, none => fractional

/-- Digits with a fraction, as a floating-point number. -/
def decimalDouble (whole places : List Char) (exponent : Int) : Double :=
  .nearestDecimal (digitsValue 10 (whole ++ places)) (exponent - places.length)

/-- The sum of parts in base sixty, the last one first. Each place is worked out as a
floating-point number of its own, and a place that is infinite is refused. -/
def sumSixtieths : (place : Nat) → (sum : Double) → List Double → Except ReadError Double
  | _, sum, [] => .ok sum
  | place, sum, part :: rest =>
    match Double.nearest place 1 with
    | .infinite => .error .tooManyPlaces
    | weight => sumSixtieths (place * 60) (sum.add (part.mul weight)) rest

/-- The exponent of a number: a letter, a sign and digits. Nothing is exponent zero. -/
def exponent? (text : List Char) : Option Int :=
  match text with
  | [] => some 0
  | letter :: sign :: digits =>
    if (letter == 'e' || letter == 'E') && !digits.isEmpty && digits.all Char.isDigit then
      let value := digitsValue 10 digits
      match sign with
      | '+' => some (value : Int)
      | '-' => some (-(value : Int))
      | _ => none
    else none
  | _ => none

/-- The floating-point number that a text without sign writes: digits with a point, perhaps in
base sixty before it or with an exponent after it. Digits may be missing before the point only if
they do not follow a sign. -/
def unsignedDouble? (isSigned : Bool) (text : List Char) : Option (Except ReadError Double) :=
  match text.dropWhile (· != '.') with
  | [] => none
  | _ :: fraction =>
    let places := fraction.takeWhile fun digit => digit.isDigit || digit == '_'
    let rest := fraction.drop places.length
    let decimals := withoutUnderscores places
    match (colonParts (text.takeWhile (· != '.'))).reverse with
    | [[]] =>
      if isSigned || !isDigitRun places then none
      else (exponent? rest).map fun exponent => .ok (decimalDouble [] decimals exponent)
    | [head] =>
      if isDigitRun head then
        (exponent? rest).map fun exponent =>
          .ok (decimalDouble (withoutUnderscores head) decimals exponent)
      else none
    | last :: others =>
      if isSixtieth last && others.dropLast.all isSixtieth && (others.getLast?.any isDigitRun) &&
          rest.isEmpty then
        let parts := decimalDouble last decimals 0 ::
          others.map fun part => decimalDouble (withoutUnderscores part) [] 0
        some (sumSixtieths 1 (.finite 0 0) parts)
      else none
    | [] => none

/-- The floating-point number that a text writes, which may be one of the words for infinity and
for no number. -/
def plainFloat? (text : List Char) : Option (Except ReadError FloatNumber) :=
  let signed := Text.readSign text
  if [".nan", ".NaN", ".NAN"].contains (String.ofList text) ||
      [".inf", ".Inf", ".INF"].contains (String.ofList signed.2) then
    some (.ok .notFinite)
  else
    (unsignedDouble? (signed.2.length < text.length) signed.2).map fun read =>
      read.map (FloatNumber.ofDouble signed.1)

/-! ### Values -/

/-- The value that a text without quotes writes. Two texts are kept for purposes of their own. -/
def plainValue (text : List Char) : Except ReadError Value :=
  let word := String.ofList text
  if ["", "~", "null", "Null", "NULL"].contains word then .ok .null
  else if ["yes", "Yes", "YES", "true", "True", "TRUE", "on", "On", "ON"].contains word then
    .ok (.bool true)
  else if ["no", "No", "NO", "false", "False", "FALSE", "off", "Off", "OFF"].contains word then
    .ok (.bool false)
  else if ["<<", "="].contains word then .error .malformed
  else
    match plainFloat? text, plainInteger? text, readDate text with
    | some read, _, _ => read.map Value.float
    | none, some read, _ => read.map Value.int
    | none, none, some date =>
      match date.error? with
      | some error => .error error
      | none => .ok .date
    | none, none, none => .ok (.string word)

end OutlineDiagram.Yaml
