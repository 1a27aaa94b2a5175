/-
This file turns the content of a settings file into settings. There are two ways:
the one of the command line, where variables of the environment override the file
and an empty file sets nothing, and the strict one, which knows the file alone. Both
ways leave it to others how a text is read and how settings are checked.
-/

import OutlineDiagram.Settings.Validate
import OutlineDiagram.Yaml.Reader

namespace OutlineDiagram

open Text Yaml

/-! ### Errors -/

/-- The reason why settings cannot be loaded. -/
inductive SettingsError where
  /-- The file that was asked for does not exist. -/
  | missingFile (path : String)
  /-- The file that is to be read strictly does not exist. -/
  | missingStrictFile (path : String)
  /-- The file is a directory. -/
  | isDirectory (path : String)
  /-- The path is too long for a file to be at it. -/
  | tooLong (path : String)
  /-- The file is not written in UTF-8. -/
  | notUtf8 (path : String)
  /-- The file cannot be read as YAML. -/
  | unreadable (path : String) (error : ReadError)
  /-- The file does not hold a mapping. -/
  | notMapping (path : String)
  /-- A variable overrides a field of a section that is no mapping. -/
  | overriddenNonMapping
  /-- A name at the top of the file is no text. -/
  | nonTextName
  /-- Some fields are not valid. -/
  | invalid (errors : List FieldError)
  deriving DecidableEq, Repr

namespace SettingsError

/-- What is reported of an error. -/
def message : SettingsError → String
  | missingFile path => "Configuration file not found: " ++ path
  | missingStrictFile path =>
    "Configuration file not found at " ++ path ++ "\n\nExample configuration:\n\n" ++
      "parser:\n  indent_size: 2\n\nrender:\n  splines: ortho\n  wrap_width: 25\n"
  | isDirectory path => "Is a directory: " ++ path
  | tooLong path => "File name too long: " ++ path
  | notUtf8 path => "Not written in UTF-8: " ++ path
  | unreadable path .malformed => "Invalid YAML in " ++ path
  | unreadable _ error => error.message
  | notMapping path => "Configuration in " ++ path ++ " must be a mapping"
  | overriddenNonMapping => "A section with overridden fields must be a mapping"
  | nonTextName => "Names must be text"
  | invalid errors =>
    "\n".intercalate (errors.map fun error =>
      ".".intercalate error.location ++ "\n  " ++ error.fault.message)

/-- The settings were found, but their content is wrong. -/
def isContentError : SettingsError → Bool
  | notUtf8 _ | notMapping _ | invalid _ => true
  | unreadable _ error => !error.isOverflow
  | _ => false

end SettingsError

/-! ### The environment -/

/-- The variables that override settings, where they are set. -/
structure Overrides where
  /-- Overrides the number of blanks in a unit of indentation. -/
  indentSize : Option String := none
  /-- Overrides the length of the lines of a label. -/
  wrapWidth : Option String := none
  /-- Overrides how edges are routed. -/
  splines : Option String := none
  deriving DecidableEq, Repr, Inhabited

/-- The text of a variable that is set and not empty. -/
def setText? (variable_ : Option String) : Option String := variable_.filter (· != "")

/-- The number of a variable that writes one. Any other text overrides nothing. -/
def setInteger? (variable_ : Option String) : Option Int :=
  (setText? variable_).bind fun text => readInteger text.toList

/-- The entries with a section, an empty one where there was none. -/
def withSection (name : String) (entries : List (Value × Value)) : List (Value × Value) :=
  match Value.field? name entries with
  | none => Value.withField name (.map []) entries
  | some _ => entries

/-- The entries with a field of a section overridden. -/
def overrideField (section_ name : String) (value : Option Value)
    (entries : List (Value × Value)) : Except SettingsError (List (Value × Value)) :=
  match value with
  | none => .ok entries
  | some value =>
    match Value.field? section_ entries with
    | some (.map fields) =>
      .ok (Value.withField section_ (.map (Value.withField name value fields)) entries)
    | _ => .error .overriddenNonMapping

/-- The entries with both sections, and with the fields that variables override. -/
def applyOverrides (overrides : Overrides) (entries : List (Value × Value)) :
    Except SettingsError (List (Value × Value)) := do
  let complete := withSection "render" (withSection "parser" entries)
  let indented ← overrideField "parser" "indent_size"
    ((setInteger? overrides.indentSize).map Value.int) complete
  let wrapped ← overrideField "render" "wrap_width"
    ((setInteger? overrides.wrapWidth).map Value.int) indented
  overrideField "render" "splines" ((setText? overrides.splines).map Value.string) wrapped

/-! ### From values to settings -/

namespace Settings

/-- What settings are loaded with. -/
structure Tools where
  /-- The value that a YAML text holds. -/
  read : List Char → Except ReadError Value
  /-- The settings that entries give, if all of them are valid. The names are texts. -/
  construct : List (Value × Value) → Except (List FieldError) Settings

/-- The reader and the checks of this library. The reader knows no anchors, tags, directives and
texts in blocks. -/
def Tools.own : Tools := ⟨Yaml.read, ofEntries⟩

/-- The settings of a mapping all of whose names are texts. -/
def ofNamedEntries (entries : List (Value × Value)) (tools : Tools := .own) :
    Except SettingsError Settings :=
  if Value.hasOddName entries then .error .nonTextName
  else
    match tools.construct entries with
    | .ok settings => .ok settings
    | .error errors => .error (.invalid errors)

/-- The settings of the value in a file, with overrides. A value without content sets nothing. -/
def ofValue (overrides : Overrides) (path : String) (value : Value) (tools : Tools := .own) :
    Except SettingsError Settings :=
  match if value.isEmpty then .map [] else value with
  | .map entries => do
    let overridden ← applyOverrides overrides entries
    ofNamedEntries overridden tools
  | _ => .error (.notMapping path)

/-- The settings of the value in a file, strictly: only a missing value sets nothing. -/
def ofValueStrict (path : String) (value : Value) (tools : Tools := .own) :
    Except SettingsError Settings :=
  match value with
  | .null => ofNamedEntries [] tools
  | .map entries => ofNamedEntries entries tools
  | _ => .error (.notMapping path)

end Settings

end OutlineDiagram
