/-
This file reads dates, with a time of day after them or without. A text can have the
form of a date and write none, such as the thirtieth of February.
-/

import OutlineDiagram.Yaml.ReadError

namespace OutlineDiagram.Yaml

/-! ### Parts -/

/-- The number at the start of a text, which has as many digits as a range allows, and the rest. -/
def dateNumber (least greatest : Nat) (text : List Char) : Option (Nat × List Char) :=
  let digits := text.takeWhile Char.isDigit
  if least ≤ digits.length ∧ digits.length ≤ greatest then
    some (digits.foldl (fun value digit => value * 10 + (digit.toNat - '0'.toNat)) 0,
      text.dropWhile Char.isDigit)
  else none

/-- The rest of a text after a character. -/
def afterChar (character : Char) : List Char → Option (List Char)
  | first :: rest => if first = character then some rest else none
  | [] => none

/-- The text without the spaces and tabs in front. -/
def afterBlanks (text : List Char) : List Char :=
  text.dropWhile fun blank => blank == ' ' || blank == '\t'

/-- The distance of a time zone in minutes, which is all of a text. Without a zone there is none. -/
def readZone (text : List Char) : Option Int :=
  match afterBlanks text with
  | [] => if text.isEmpty then some 0 else none
  | ['Z'] => some 0
  | sign :: rest => do
    let hours ← dateNumber 1 2 rest
    let minutes ←
      if hours.2.isEmpty then some 0
      else
        match (afterChar ':' hours.2).bind (dateNumber 2 2) with
        | some (minutes, []) => some minutes
        | _ => none
    let distance : Int := hours.1 * 60 + minutes
    if sign = '+' then some distance else if sign = '-' then some (-distance) else none

/-! ### Times of day -/

/-- A time of day, in a time zone. -/
structure DayTime where
  /-- The hour. -/
  hour : Nat
  /-- The minute. -/
  minute : Nat
  /-- The second. -/
  second : Nat
  /-- The distance of the time zone in minutes. -/
  zone : Int
  deriving DecidableEq, Repr

/-- The text after what stands between a date and its time. -/
def startOfTime : List Char → Option (List Char)
  | [] => none
  | first :: rest =>
    if first = 'T' ∨ first = 't' then some rest
    else if first = ' ' ∨ first = '\t' then some (afterBlanks rest)
    else none

/-- The time of day that is all of a text after a date. -/
def readDayTime (text : List Char) : Option DayTime := do
  let hour ← (startOfTime text).bind (dateNumber 1 2)
  let minute ← (afterChar ':' hour.2).bind (dateNumber 2 2)
  let second ← (afterChar ':' minute.2).bind (dateNumber 2 2)
  let zone ←
    match second.2 with
    | '.' :: fraction => readZone (fraction.dropWhile Char.isDigit)
    | rest => readZone rest
  some ⟨hour.1, minute.1, second.1, zone⟩

/-! ### Dates -/

/-- The form of a date. -/
structure DateForm where
  /-- The year. -/
  year : Nat
  /-- The month. -/
  month : Nat
  /-- The day. -/
  day : Nat
  /-- The time of day, if there is one. -/
  time : Option DayTime
  deriving DecidableEq, Repr

/-- The date that a text has the form of. Without a time, its month and its day have two digits. -/
def readDate (text : List Char) : Option DateForm := do
  let year ← dateNumber 4 4 text
  let months ← afterChar '-' year.2
  let month ← dateNumber 1 2 months
  let days ← afterChar '-' month.2
  let day ← dateNumber 1 2 days
  if day.2.isEmpty then
    if (dateNumber 2 2 months).isSome && (dateNumber 2 2 days).isSome then
      some ⟨year.1, month.1, day.1, none⟩
    else none
  else (readDayTime day.2).map fun time => ⟨year.1, month.1, day.1, some time⟩

/-- The number of days of a month. -/
def daysOfMonth (year month : Nat) : Nat :=
  if month = 2 then
    if year % 4 = 0 ∧ (year % 100 ≠ 0 ∨ year % 400 = 0) then 29 else 28
  else if [4, 6, 9, 11].contains month then 30
  else 31

/-- What is wrong with a time zone. -/
def zoneError? (minutes : Int) : Option ReadError :=
  if 1440 ≤ minutes.natAbs then some (.farZone minutes) else none

/-- What is wrong with a day of the calendar: the first of its parts that is out of range. -/
def dayError? (year month day : Nat) : Option ReadError :=
  if year = 0 then some (.noYear year)
  else if month < 1 ∨ 12 < month then some .noMonth
  else if day < 1 ∨ daysOfMonth year month < day then some .noDay
  else none

/-- What is wrong with a time of day: the first of its parts that is out of range. -/
def timeError? (time : DayTime) : Option ReadError :=
  if 23 < time.hour then some .noHour
  else if 59 < time.minute then some .noMinute
  else if 59 < time.second then some .noSecond
  else none

/-- What is wrong with a date. Its time zone is looked at first. -/
def DateForm.error? (date : DateForm) : Option ReadError :=
  (date.time.bind fun time => zoneError? time.zone) <|>
    dayError? date.year date.month date.day <|> date.time.bind timeError?

end OutlineDiagram.Yaml
