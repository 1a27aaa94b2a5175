/-
This file holds what a run depends on besides its command line and the files: the
variables of the environment, the settings in the home folder, the supply of ids,
and what others do while the run replaces a file.
-/

import OutlineDiagram.Files.Replace
import OutlineDiagram.Ids.Supply
import OutlineDiagram.Settings.File

namespace OutlineDiagram

namespace Level

/-- The letter in upper case, as far as names of levels are concerned. -/
def upperLetter (character : Char) : Char :=
  if character = 'ı' then 'I' else character.toUpper

/-- The level that a variable sets, by its name in any case. Without a known name it is that of a
normal run. -/
def ofVariable (variable_ : Option String) : Level :=
  match String.ofList ((variable_.getD "").toList.map upperLetter) with
  | "DEBUG" => .debug
  | "WARNING" => .warning
  | "ERROR" => .error
  | _ => .info

end Level

/-- What a run depends on besides its command line and the files. -/
structure Environment where
  /-- The variables that override settings. -/
  overrides : Overrides := {}
  /-- The level from which on events are logged. -/
  threshold : Level := .info
  /-- The settings in the home folder, if there are any. -/
  homeSettings : Option ByteArray := none
  /-- What settings are loaded with. -/
  tools : Settings.Tools := .own
  /-- Where ids come from. -/
  supply : IdSupply
  /-- The number of the process, by which temporary files are named. -/
  process : Nat := 0
  /-- What others do while a file is replaced. -/
  meanwhile : List Change := []

end OutlineDiagram
