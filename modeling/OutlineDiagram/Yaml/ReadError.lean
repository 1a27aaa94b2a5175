/-
This file says why a YAML text cannot be read. A text can be malformed; and where it
is well formed, a word in it can have the form of a number, of a date or of a
character's escape and yet write none.
-/

namespace OutlineDiagram.Yaml

/-- The reason why a text cannot be read. -/
inductive ReadError where
  /-- The text is not YAML. -/
  | malformed
  /-- A whole number in some base has no digits. -/
  | noDigits (base : Nat)
  /-- A whole number has too many digits. -/
  | tooManyDigits (count : Nat)
  /-- A floating-point number in base sixty has too many places. -/
  | tooManyPlaces
  /-- An escape writes a number that is no character's. -/
  | noCharacter
  /-- An escape writes a number that is not even a word of 32 bits with sign. -/
  | noWord
  /-- There is no year with the number. -/
  | noYear (year : Nat)
  /-- There is no such month. -/
  | noMonth
  /-- The month has no such day. -/
  | noDay
  /-- There is no such hour. -/
  | noHour
  /-- There is no such minute. -/
  | noMinute
  /-- There is no such second. -/
  | noSecond
  /-- A time zone is a day or more away, by some minutes. -/
  | farZone (minutes : Int)
  deriving DecidableEq, Repr

namespace ReadError

/-- A distance in minutes, in days and in seconds of a last day that is counted forwards. -/
def distanceText (minutes : Int) : String :=
  let days := minutes.fdiv 1440
  let seconds := minutes.fmod 1440 * 60
  "datetime.timedelta(days=" ++ toString days ++
    (if seconds = 0 then "" else ", seconds=" ++ toString seconds) ++ ")"

/-- What is reported of an error. -/
def message : ReadError → String
  | malformed => "Invalid YAML"
  | noDigits base => "invalid literal for int() with base " ++ toString base ++ ": ''"
  | tooManyDigits count =>
    "Exceeds the limit (4300 digits) for integer string conversion: value has " ++
      toString count ++ " digits; use sys.set_int_max_str_digits() to increase the limit"
  | tooManyPlaces => "int too large to convert to float"
  | noCharacter => "chr() arg not in range(0x110000)"
  | noWord => "Python int too large to convert to C int"
  | noYear year => "year " ++ toString year ++ " is out of range"
  | noMonth => "month must be in 1..12"
  | noDay => "day is out of range for month"
  | noHour => "hour must be in 0..23"
  | noMinute => "minute must be in 0..59"
  | noSecond => "second must be in 0..59"
  | farZone minutes =>
    "offset must be a timedelta strictly between -timedelta(hours=24) and " ++
      "timedelta(hours=24), not " ++ distanceText minutes ++ "."

/-- A number is too large for the machine, and not just for what is asked for. -/
def isOverflow : ReadError → Bool
  | tooManyPlaces | noWord => true
  | _ => false

end ReadError

end OutlineDiagram.Yaml
