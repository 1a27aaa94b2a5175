/-
This file reads quoted texts of YAML and the runs of blanks and line ends that all
its texts have in common. A line end inside a text is one space; further empty
lines are line ends. Between double quotes a backslash starts an escape; between
single quotes two quotes are one.
-/

import OutlineDiagram.Yaml.ReadError

namespace OutlineDiagram.Yaml

/-! ### Line ends -/

/-- The character ends a line. -/
def isBreak (character : Char) : Bool :=
  ['\n', '\r', '\u0085', '\u2028', '\u2029'].contains character

/-- The character is a space, a tab or ends a line. -/
def isGap (character : Char) : Bool := character == ' ' || character == '\t' || isBreak character

/-- The text is at its end or goes on with a space, a tab or a line end. -/
def atGap : List Char → Bool
  | [] => true
  | next :: _ => isGap next

/-- The line end that a text starts with, and the rest. All line ends but the two separators of
Unicode are written as newlines. -/
def takeBreak : List Char → Option (Char × List Char)
  | '\r' :: '\n' :: rest => some ('\n', rest)
  | next :: rest =>
    if next = '\u2028' ∨ next = '\u2029' then some (next, rest)
    else if isBreak next then some ('\n', rest)
    else none
  | [] => none

/-- The text starts with a line that separates documents. -/
def atSeparator : List Char → Bool
  | '-' :: '-' :: '-' :: rest => atGap rest
  | '.' :: '.' :: '.' :: rest => atGap rest
  | _ => false

/-- A run of line ends as it is read: one newline is a space, and the empty lines after it are
line ends. -/
def foldBreaks (first : Char) (others : List Char) : List Char :=
  if first ≠ '\n' then first :: others else if others.isEmpty then [' '] else others

/-! ### Quoted texts -/

/-- The empty lines at the start of a text and what follows them, the blanks before it dropped.
There may be no line that separates documents. -/
def quotedBreaks : (fuel : Nat) → List Char → Except ReadError (List Char × List Char)
  | 0, _ => .error .malformed
  | fuel + 1, text =>
    if atSeparator text then .error .malformed
    else
      let started := text.dropWhile fun character => character == ' ' || character == '\t'
      match takeBreak started with
      | none => .ok ([], started)
      | some (ended, rest) =>
        (quotedBreaks fuel rest).map fun found => (ended :: found.1, found.2)

/-- The character that a one-letter escape writes. -/
def simpleEscape? : Char → Option Char
  | '0' => some '\x00'
  | 'a' => some '\x07'
  | 'b' => some '\x08'
  | 't' => some '\t'
  | '\t' => some '\t'
  | 'n' => some '\n'
  | 'v' => some '\x0b'
  | 'f' => some '\x0c'
  | 'r' => some '\r'
  | 'e' => some '\x1b'
  | ' ' => some ' '
  | '"' => some '"'
  | '\\' => some '\\'
  | '/' => some '/'
  | 'N' => some '\u0085'
  | '_' => some '\u00a0'
  | 'L' => some '\u2028'
  | 'P' => some '\u2029'
  | _ => none

/-- The number of digits after the letter of an escape by number. -/
def escapeWidth? : Char → Option Nat
  | 'x' => some 2
  | 'u' => some 4
  | 'U' => some 8
  | _ => none

/-- The value of a hexadecimal digit. -/
def hexValue? (character : Char) : Option Nat :=
  if character.isDigit then some (character.toNat - 48)
  else if 'a' ≤ character ∧ character ≤ 'f' then some (character.toNat - 87)
  else if 'A' ≤ character ∧ character ≤ 'F' then some (character.toNat - 55)
  else none

/-- The number that a row of hexadecimal digits writes. -/
def hexNumber? (digits : List Char) : Option Nat :=
  digits.foldl (fun value digit =>
    value.bind fun sofar => (hexValue? digit).map fun unit => sofar * 16 + unit) (some 0)

/-- The number that a text starts with in as many hexadecimal digits as are asked for, and the
rest. -/
def cutHexNumber (width : Nat) (text : List Char) : Option (Nat × List Char) :=
  if text.length < width then none
  else (hexNumber? (text.take width)).map fun number => (number, text.drop width)

/-- The number of the second half of a pair of units, written as an escape at the start of a text,
and the rest. -/
def cutSecondUnit : List Char → Option (Nat × List Char)
  | '\\' :: 'u' :: rest =>
    (cutHexNumber 4 rest).filter fun found => 0xDC00 ≤ found.1 && found.1 ≤ 0xDFFF
  | _ => none

/-- The character with a number, and the rest of the text. Two units of a pair, each written by an
escape, are one character. -/
def numberedCharacter (point : Nat) (rest : List Char) : Except ReadError (Char × List Char) :=
  if point.isValidChar then .ok (Char.ofNat point, rest)
  else if 0x80000000 ≤ point then .error .noWord
  else if 0x110000 ≤ point then .error .noCharacter
  else
    match cutSecondUnit rest with
    | some (second, later) =>
      if point < 0xDC00 then
        .ok (Char.ofNat (0x10000 + (point - 0xD800) * 0x400 + (second - 0xDC00)), later)
      else .error .malformed
    | none => .error .malformed

/-- What an escape after its backslash writes, and the rest. -/
def readEscape : List Char → Except ReadError (Char × List Char)
  | [] => .error .malformed
  | letter :: rest =>
    match simpleEscape? letter, escapeWidth? letter with
    | some character, _ => .ok (character, rest)
    | none, some width =>
      match cutHexNumber width rest with
      | some (point, later) => numberedCharacter point later
      | none => .error .malformed
    | none, none => .error .malformed

/-- The text up to the closing quote, and what follows the quote. -/
def readQuoted (quote : Char) :
    (fuel : Nat) → List Char → Except ReadError (List Char × List Char)
  | 0, _ => .error .malformed
  | _ + 1, [] => .error .malformed
  | fuel + 1, first :: rest =>
    let go (written : List Char) (later : List Char) : Except ReadError (List Char × List Char) :=
      (readQuoted quote fuel later).map fun found => (written ++ found.1, found.2)
    if first = quote then
      match rest with
      | '\'' :: later => if quote = '\'' then go ['\''] later else .ok ([], rest)
      | _ => .ok ([], rest)
    else if isGap first then
      let isTabOrSpace (character : Char) : Bool := character == ' ' || character == '\t'
      let blanks := (first :: rest).takeWhile isTabOrSpace
      let later := (first :: rest).dropWhile isTabOrSpace
      match takeBreak later with
      | none => go blanks later
      | some (ended, after) =>
        (quotedBreaks (after.length + 1) after).bind fun found =>
          go (foldBreaks ended found.1) found.2
    else if quote = '"' ∧ first = '\\' then
      match takeBreak rest with
      | some (_, after) =>
        (quotedBreaks (after.length + 1) after).bind fun found => go found.1 found.2
      | none => (readEscape rest).bind fun found => go [found.1] found.2
    else go [first] rest

end OutlineDiagram.Yaml
