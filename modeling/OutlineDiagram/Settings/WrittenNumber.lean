/-
This file reads the whole number that a text writes where a setting wants a
number. A number in its bare form is read as it stands. Any other text is brought
into that form first: white space, a plus sign, needless zeros, underscores between
digits and a fraction of zeros are taken away. What lies between the zeros in front
and the number is taken away with them, a second minus sign excepted.
-/

import OutlineDiagram.Settings.Fault
import OutlineDiagram.Text.Digit

namespace OutlineDiagram

open Text

/-! ### The bare form -/

/-- The text without a minus sign in front, and whether there was one. -/
def cutMinus : List Char → Bool × List Char
  | '-' :: rest => (true, rest)
  | text => (false, text)

/-- The value of a row of ASCII digits. -/
def digitsToNat (digits : List Char) : Nat :=
  digits.foldl (fun value digit => value * 10 + (digit.toNat - '0'.toNat)) 0

/-- A natural number in its bare form: digits of which the first is no zero, or a lone zero. -/
def bareNatural? : List Char → Option Nat
  | ['0'] => some 0
  | [] => none
  | first :: rest =>
    if first ≠ '0' && (first :: rest).all Char.isDigit then some (digitsToNat (first :: rest))
    else none

/-- The text starts with a number in its bare form that has too many characters. -/
def isTooLong (text : List Char) : Bool :=
  let digits := (cutMinus text).2.takeWhile Char.isDigit
  digits.head? ≠ some '0' && digitLimit < text.length - (cutMinus text).2.length + digits.length

/-- A whole number in its bare form, if it is not too long: a natural number, perhaps after a
minus sign. -/
def bareInteger? (text : List Char) : Option Int :=
  if isTooLong text then none
  else
    (bareNatural? (cutMinus text).2).map fun value =>
      if (cutMinus text).1 then -(value : Int) else (value : Int)

/-! ### Other forms -/

/-- The number after zeros and underscores, given the character before the text: what starts with
another digit or a minus sign, with the character before it what starts with a point, or else the
last character. -/
def afterZeros : (previous : Char) → List Char → Option (List Char)
  | previous, [] => some [previous]
  | previous, first :: rest =>
    if first = '0' ∨ first = '_' then afterZeros first rest
    else if first.isDigit ∨ first = '-' then some (first :: rest)
    else if first = '.' then some (previous :: first :: rest)
    else none

/-- The number without needless zeros in front. -/
def withoutZeros : List Char → Option (List Char)
  | [] => none
  | first :: rest =>
    if first = '0' then afterZeros first rest
    else if first.isDigit ∨ first = '-' then some (first :: rest)
    else none

/-- The number without its fraction if the fraction consists of zeros. -/
def withoutFraction (text : List Char) : List Char :=
  let fraction := (text.dropWhile (· != '.')).drop 1
  if !fraction.isEmpty && fraction.all (· == '0') then text.takeWhile (· != '.') else text

/-- Some underscore has no other character on either side of it. -/
def hasLooseUnderscore : List Char → Bool
  | [] => false
  | ['_'] => true
  | first :: second :: rest =>
    (first == '_' && second == '_') || hasLooseUnderscore (second :: rest)
  | [_] => false

/-- The number without underscores, if all of them stand between other characters. -/
def withoutSeparators (text : List Char) : List Char :=
  if text.head? == some '_' || hasLooseUnderscore text then text else text.filter (· != '_')

/-- The text without a plus sign in front. A minus sign may not follow it. -/
def withoutPlus : List Char → Option (List Char)
  | '+' :: '-' :: _ => none
  | '+' :: rest => some rest
  | text => some text

/-- The bare form of the number that a text writes in another form. -/
def bareForm? (text : List Char) : Option (List Char) := do
  let signed ← withoutPlus (trimWhiteSpace text)
  let number ← withoutZeros (cutMinus signed).2
  let plain := withoutSeparators (withoutFraction number)
  if (cutMinus signed).1 then
    if (cutMinus (cutMinus signed).2).1 then none else some ('-' :: plain)
  else some plain

/-- The whole number that a text writes. -/
def writtenInteger (text : List Char) : Except Fault Int :=
  match bareInteger? text with
  | some value => .ok value
  | none =>
    if isTooLong text then .error .oversized
    else
      match (bareForm? text).bind bareInteger? with
      | some value => .ok value
      | none => .error .unreadableInteger

end OutlineDiagram
