/-
This file writes events as lines of a log. Each line is a JSON object with the
particulars of one event, its name and its level.
-/

import OutlineDiagram.Event

namespace OutlineDiagram.LogLine

/-- Four hexadecimal digits of a number. -/
def fourDigits (unit : Nat) : List Char :=
  let digits := Nat.toDigits 16 unit
  List.replicate (4 - digits.length) '0' ++ digits

/-- The escape of a character by its number, in two units where one is not enough. -/
def escapeUnits (point : Nat) : List Char :=
  if point < 0x10000 then '\\' :: 'u' :: fourDigits point
  else
    '\\' :: 'u' :: fourDigits (0xD800 + (point - 0x10000) / 0x400) ++
      '\\' :: 'u' :: fourDigits (0xDC00 + (point - 0x10000) % 0x400)

/-- A character between the quotes of a text. Only printable ASCII characters stand for
themselves. -/
def escapeCharacter (character : Char) : List Char :=
  match character with
  | '"' => ['\\', '"']
  | '\\' => ['\\', '\\']
  | '\n' => ['\\', 'n']
  | '\r' => ['\\', 'r']
  | '\t' => ['\\', 't']
  | '\x08' => ['\\', 'b']
  | '\x0c' => ['\\', 'f']
  | _ =>
    if ' ' ≤ character && character ≤ '~' then [character] else escapeUnits character.toNat

/-- A text between quotes. -/
def quoted (text : String) : String :=
  String.ofList ('"' :: text.toList.flatMap escapeCharacter ++ ['"'])

/-- A particular of an event. -/
def detailText : Event.Detail → String
  | .number value => toString value
  | .flag value => if value then "true" else "false"
  | .text value => quoted value

/-- The line of an event. -/
def ofEvent (event : Event) : String :=
  let fields := event.details.map (fun detail => (detail.1, detailText detail.2)) ++
    [("event", quoted event.name), ("level", quoted event.level.name)]
  "\x7b" ++ ", ".intercalate (fields.map fun field => quoted field.1 ++ ": " ++ field.2) ++ "\x7d"

end OutlineDiagram.LogLine
