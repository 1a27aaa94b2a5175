/-
This file recognises texts that write a constant value: numbers, quoted texts, a few
names, and tuples, sets and tables of such values. Nothing is worked out; of a value
only what decides where it may stand is kept.
-/

import OutlineDiagram.Text.Digit

namespace OutlineDiagram.Text

namespace Literal

/-! ### Kinds of values -/

/-- What a value is, as far as it decides where the value may stand. -/
inductive Shape where
  /-- A real number without sign. -/
  | real
  /-- A real number after a sign. -/
  | signedReal
  /-- An imaginary number without sign. -/
  | imaginary
  /-- Any other value that can be in a set. -/
  | plain
  /-- A value that cannot be in a set. -/
  | changeable
  deriving DecidableEq, Repr

/-- The value can be in a set. -/
def Shape.isFixed (shape : Shape) : Bool := shape ≠ .changeable

/-- The shape of something that a text starts with, and the rest. -/
abbrev Cut := Option (Shape × List Char)

/-! ### Filler -/

/-- The character may be part of a name. -/
def isNameCharacter (character : Char) : Bool :=
  character.isAlphanum || character == '_' || 0x80 ≤ character.toNat

/-- The text without the filler in front: blanks, comments and continued lines, and between
parentheses also the ends of lines. -/
def skipFiller (isEnclosed : Bool) : (fuel : Nat) → List Char → List Char
  | 0, text => text
  | _, [] => []
  | fuel + 1, first :: rest =>
    if first = ' ' ∨ first = '\t' ∨ first = '\x0c' then skipFiller isEnclosed fuel rest
    else if first = '\n' ∧ isEnclosed then skipFiller isEnclosed fuel rest
    else if first = '#' then skipFiller isEnclosed fuel (rest.dropWhile (· != '\n'))
    else
      match first, rest with
      | '\\', '\n' :: later => skipFiller isEnclosed fuel later
      | _, _ => first :: rest

/-- The text without the filler in front. -/
def skip (isEnclosed : Bool) (text : List Char) : List Char :=
  skipFiller isEnclosed text.length text

/-! ### Numbers -/

/-- The digits at the start of a text, one underscore allowed between two of them, and the rest. -/
def cutDigits (isDigit : Char → Bool) : List Char → List Char × List Char
  | [] => ([], [])
  | first :: rest =>
    if isDigit first then
      let later := cutDigits isDigit rest
      (first :: later.1, later.2)
    else
      match first, rest with
      | '_', next :: others =>
        if isDigit next then
          let later := cutDigits isDigit others
          (next :: later.1, later.2)
        else ([], first :: rest)
      | _, _ => ([], first :: rest)

/-- The digits at the start of a text, the first of which is no underscore, and the rest. -/
def cutNumber (isDigit : Char → Bool) (text : List Char) : List Char × List Char :=
  if text.head?.any isDigit then cutDigits isDigit text else ([], text)

/-- The text after an exponent, if it starts with one. -/
def afterExponent (text : List Char) : Option (List Char) :=
  match text with
  | letter :: rest =>
    if letter = 'e' ∨ letter = 'E' then
      let found := cutNumber Char.isDigit (readSign rest).2
      if found.1.isEmpty then none else some found.2
    else none
  | [] => none

/-- The text after a number, which may not go on as a name does. -/
def finishNumber (shape : Shape) (rest : List Char) : Cut :=
  if rest.head?.any isNameCharacter then none else some (shape, rest)

/-- A number in base ten: whole, with a point, with an exponent, or imaginary. -/
def cutDecimal (text : List Char) : Cut :=
  let whole := cutNumber Char.isDigit text
  let point := match whole.2 with
    | '.' :: rest => some (cutNumber Char.isDigit rest)
    | _ => none
  if whole.1.isEmpty && (point.map Prod.fst).all List.isEmpty then none
  else
    let pointed := (point.map Prod.snd).getD whole.2
    let powered := afterExponent pointed
    let rest := powered.getD pointed
    match rest with
    | letter :: others =>
      if letter = 'j' ∨ letter = 'J' then finishNumber .imaginary others
      else if point.isNone && powered.isNone && !isWhole whole.1 then none
      else finishNumber .real rest
    | [] => if point.isNone && powered.isNone && !isWhole whole.1 then none else some (.real, [])
where
  /-- The digits may write a whole number: there is no needless zero, and not too many of them. -/
  isWhole (digits : List Char) : Bool :=
    (digits.head? != some '0' || digits.all (· == '0')) && digits.length ≤ digitLimit

/-- The test for a digit of a base by the letter that stands for the base. -/
def baseDigit? (letter : Char) : Option (Char → Bool) :=
  match letter.toLower with
  | 'b' => some fun digit => digit == '0' || digit == '1'
  | 'o' => some fun digit => '0' ≤ digit && digit ≤ '7'
  | 'x' => some fun digit => digit.isDigit || ('a' ≤ digit.toLower && digit.toLower ≤ 'f')
  | _ => none

/-- A number at the start of a text. -/
def cutReal (text : List Char) : Cut :=
  match text with
  | '0' :: letter :: rest =>
    match baseDigit? letter with
    | some isDigit =>
      let found := cutDigits isDigit rest
      if found.1.isEmpty then none else finishNumber .real found.2
    | none => cutDecimal text
  | _ => cutDecimal text

/-! ### Quoted texts -/

/-- How the characters of a quoted text are read. -/
structure Quoting where
  /-- Backslashes stand for themselves. -/
  isRaw : Bool
  /-- The text consists of bytes. -/
  isBytes : Bool
  deriving DecidableEq, Repr

/-- The way of quoting that the letters before a quote ask for. -/
def quoting? (letters : List Char) : Option Quoting :=
  match letters.map Char.toLower with
  | [] | ['u'] => some ⟨false, false⟩
  | ['r'] => some ⟨true, false⟩
  | ['b'] => some ⟨false, true⟩
  | ['b', 'r'] | ['r', 'b'] => some ⟨true, true⟩
  | _ => none

/-- The hexadecimal digits at the start of a text, as many as are asked for, and the rest. -/
def afterHexDigits (count : Nat) (text : List Char) : Option (List Char) :=
  let digits := text.take count
  if digits.length = count &&
      digits.all fun digit => digit.isDigit || ('a' ≤ digit.toLower && digit.toLower ≤ 'f') then
    some (text.drop count)
  else none

/-- The text after an escape, which starts after its backslash. -/
def afterEscape (quoting : Quoting) (text : List Char) : Option (List Char) :=
  match text with
  | [] => none
  | 'x' :: rest => if quoting.isRaw then some rest else afterHexDigits 2 rest
  | 'u' :: rest =>
    if quoting.isRaw || quoting.isBytes then some rest else afterHexDigits 4 rest
  | 'U' :: rest =>
    if quoting.isRaw || quoting.isBytes then some rest
    else
      (afterHexDigits 8 rest).filter fun _ =>
        rest.take 2 == ['0', '0'] &&
          ((rest.drop 2).head? == some '0' || (rest.drop 2).take 2 == ['1', '0'])
  | 'N' :: rest =>
    if quoting.isRaw || quoting.isBytes then some rest
    else
      match rest, rest.dropWhile (· != '\x7d') with
      | '\x7b' :: _, _ :: later => some later
      | _, _ => none
  | _ :: rest => some rest

/-- The text after a quoted text, whose opening quotes were read. -/
def afterQuoted (quoting : Quoting) (quote : Char) (isTriple : Bool) :
    (fuel : Nat) → List Char → Option (List Char)
  | 0, _ => none
  | _, [] => none
  | fuel + 1, first :: rest =>
    if first = quote ∧ !isTriple then some rest
    else if first = quote ∧ rest.take 2 = [quote, quote] then some (rest.drop 2)
    else if first = '\n' ∧ !isTriple then none
    else if quoting.isBytes ∧ 0x80 ≤ first.toNat then none
    else if first = '\\' then
      (afterEscape quoting rest).bind (afterQuoted quoting quote isTriple fuel)
    else afterQuoted quoting quote isTriple fuel rest

/-- The character is a quote. -/
def isQuote (character : Char) : Bool := character == '\'' || character == '"'

/-- One quoted text at the start of a text: whether it consists of bytes, and the rest. -/
def cutQuoted (text : List Char) : Option (Bool × List Char) :=
  let letters := text.takeWhile Char.isAlpha
  match quoting? letters, text.drop letters.length with
  | some quoting, quote :: rest =>
    if !isQuote quote then none
    else
      let isTriple := rest.take 2 == [quote, quote]
      let body := if isTriple then rest.drop 2 else rest
      (afterQuoted quoting quote isTriple (body.length + 1) body).map
        fun later => (quoting.isBytes, later)
  | _, _ => none

/-- The rest after further quoted texts that stand beside one another. All of them are of bytes,
or none. -/
def afterMoreQuoted (isEnclosed isBytes : Bool) : (fuel : Nat) → List Char → Option (List Char)
  | 0, text => some text
  | fuel + 1, text =>
    let started := skip isEnclosed text
    match cutQuoted started with
    | some (ofBytes, rest) =>
      if ofBytes = isBytes then afterMoreQuoted isEnclosed isBytes fuel rest else none
    | none => some text

/-! ### Values -/

/-- The value that a name stands for. -/
def cutName (text : List Char) : Cut :=
  let name := text.takeWhile isNameCharacter
  if ["True", "False", "None"].contains (String.ofList name) then
    some (.plain, text.drop name.length)
  else none

/-- An empty set, written by its name. -/
def cutEmptySet (isEnclosed : Bool) (text : List Char) : Cut :=
  match text with
  | 's' :: 'e' :: 't' :: rest =>
    match skip isEnclosed rest with
    | '(' :: inner =>
      match skip true inner with
      | ')' :: later => some (.changeable, later)
      | _ => none
    | _ => none
  | _ => none

/-- A value that is no collection. -/
def cutSimple (isEnclosed : Bool) (text : List Char) : Cut :=
  match text with
  | '.' :: '.' :: '.' :: rest => some (.plain, rest)
  | _ =>
    match cutQuoted text with
    | some (isBytes, rest) =>
      (afterMoreQuoted isEnclosed isBytes rest.length rest).map fun later => (.plain, later)
    | none => cutReal text <|> cutName text <|> cutEmptySet isEnclosed text

/-- A value after a sign. Only a number without another sign can have one. -/
def signed (value : Cut) : Cut :=
  match value with
  | some (.real, rest) => some (.signedReal, rest)
  | some (.imaginary, rest) => some (.plain, rest)
  | _ => none

mutual

/-- A value without sign. -/
def cutAtom (isEnclosed : Bool) : (fuel : Nat) → List Char → Cut
  | 0, _ => none
  | fuel + 1, text =>
    match text with
    | '(' :: rest => cutItems ')' fuel .plain none (skip true rest)
    | '\x7b' :: rest =>
      match skip true rest with
      | '\x7d' :: later => some (.changeable, later)
      | started => cutItems '\x7d' fuel .changeable none started
    | _ => cutSimple isEnclosed text

/-- A value, which may be the sum of a real and an imaginary number. -/
def cutSum (isEnclosed : Bool) : (fuel : Nat) → List Char → Cut
  | 0, _ => none
  | fuel + 1, text =>
    let value :=
      match text with
      | '-' :: rest => signed (cutAtom isEnclosed fuel (skip isEnclosed rest))
      | '+' :: rest => signed (cutAtom isEnclosed fuel (skip isEnclosed rest))
      | _ => cutAtom isEnclosed fuel text
    match value with
    | none => none
    | some (shape, rest) =>
      match skip isEnclosed rest with
      | sign :: later =>
        if sign = '+' ∨ sign = '-' then
          match cutAtom isEnclosed fuel (skip isEnclosed later) with
          | some (.imaginary, after) =>
            if shape = .real ∨ shape = .signedReal then some (.plain, skip isEnclosed after)
            else none
          | _ => none
        else some (shape, sign :: later)
      | [] => some (shape, [])

/-- The items up to a closing mark, given the shape of a collection of those so far and whether
they are entries of a table. Without a comma, a lone item between parentheses is itself. Between
braces all items are entries of a table, or none. -/
def cutItems (closing : Char) :
    (fuel : Nat) → Shape → (areEntries : Option Bool) → List Char → Cut
  | 0, _, _, _ => none
  | fuel + 1, sofar, areEntries, text =>
    if text.head? = some closing then some (sofar, text.drop 1)
    else
      match cutEntry closing fuel text with
      | none => none
      | some (shape, isEntry, later) =>
        let joined := if shape.isFixed then sofar else .changeable
        match later with
        | [] => none
        | next :: rest =>
          if areEntries.any (· != isEntry) then none
          else if next = closing then
            some (if areEntries.isNone ∧ closing = ')' then shape else joined, rest)
          else if next = ',' then cutItems closing fuel joined (some isEntry) (skip true rest)
          else none

/-- One item, whether it is the entry of a table, and the rest. In a set an item has to be fixed,
and in a table its key. -/
def cutEntry (closing : Char) : (fuel : Nat) → List Char → Option (Shape × Bool × List Char)
  | 0, _ => none
  | fuel + 1, text =>
    match cutSum true fuel text with
    | none => none
    | some (shape, rest) =>
      if closing = ')' then some (shape, false, skip true rest)
      else if !shape.isFixed then none
      else
        match skip true rest with
        | ':' :: later =>
          (cutSum true fuel (skip true later)).map fun value => (shape, true, skip true value.2)
        | others => some (shape, false, others)

end

/-- The values between commas that are all of a text. -/
def isValueRow : (fuel : Nat) → List Char → Bool
  | 0, _ => false
  | fuel + 1, text =>
    match cutSum false (4 * text.length + 8) text with
    | none => false
    | some (_, rest) =>
      match skip false rest with
      | [] => true
      | ',' :: later =>
        let started := skip false later
        started.isEmpty || isValueRow fuel started
      | _ => false

end Literal

/-- The text writes a constant value. -/
def isLiteral (text : List Char) : Bool :=
  Literal.isValueRow (text.length + 1) (Literal.skip false text)

end OutlineDiagram.Text
