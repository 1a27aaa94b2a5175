/-
This file checks settings. Each field is read from a value of any kind where the
value can be understood, and every field that cannot be read or is out of range is
reported, in the order of the fields.
-/

import OutlineDiagram.Settings.Basic
import OutlineDiagram.Settings.WrittenNumber
import OutlineDiagram.Yaml.Value

namespace OutlineDiagram

open Yaml

/-! ### Reading values -/

/-- The number fits 64 bits with sign and is not the least such number. -/
def fitsWord (value : Int) : Bool := -(Int.pow 2 63) < value && value < Int.pow 2 63

/-- A value read as a whole number. -/
def readInt : Value → Except Fault Int
  | .int value => .ok value
  | .bool value => .ok (if value then 1 else 0)
  | .float (.whole value) => if fitsWord value then .ok value else .error .oversized
  | .float .fractional => .error .fractional
  | .float .notFinite => .error .notFinite
  | .string text => writtenInteger text.toList
  | _ => .error .notInteger

/-- A number, if it is between bounds, of which the upper one may be missing. -/
def checkBounds (least : Int) (greatest : Option Int) (number : Int) : Except Fault Int :=
  if number < least then .error (.belowLeast least)
  else
    match greatest with
    | some bound => if bound < number then .error (.aboveGreatest bound) else .ok number
    | none => .ok number

/-- A value read as a whole number between bounds. -/
def readBounded (least : Int) (greatest : Option Int) (value : Value) : Except Fault Int := do
  let number ← readInt value
  checkBounds least greatest number

/-- A value read as a text. -/
def readText : Value → Except Fault String
  | .string text => .ok text
  | _ => .error .notText

/-- A text, if it is the name of a way to route edges. -/
def checkSplines (text : String) : Except Fault String :=
  if splinesNames.contains text then .ok text else .error (.unknownSplines text)

/-- A value read as the name of a way to route edges. -/
def readSplines (value : Value) : Except Fault String := do
  let text ← readText value
  checkSplines text

/-- A number read as a truth value. -/
def flagOfInt (value : Int) : Except Fault Bool :=
  if value = 0 then .ok false else if value = 1 then .ok true else .error .unreadableFlag

/-- A value read as a truth value. Words for it count in any case. -/
def readFlag : Value → Except Fault Bool
  | .bool value => .ok value
  | .int value =>
    if -(Int.pow 2 63) ≤ value && value < Int.pow 2 63 then flagOfInt value else .error .notFlag
  | .float (.whole value) => if fitsWord value then flagOfInt value else .error .notFlag
  | .string text =>
    let lowered := String.ofList (text.toList.map Char.toLower)
    if ["0", "off", "f", "false", "n", "no"].contains lowered then .ok false
    else if ["1", "on", "t", "true", "y", "yes"].contains lowered then .ok true
    else .error .unreadableFlag
  | _ => .error .notFlag

/-! ### Sections -/

/-- Two results together. The faults of both are kept, those of the first one first. -/
def both {α β : Type} (first : Except (List FieldError) α)
    (second : Except (List FieldError) β) : Except (List FieldError) (α × β) :=
  match first, second with
  | .ok left, .ok right => .ok (left, right)
  | .error faults, .ok _ => .error faults
  | .ok _, .error faults => .error faults
  | .error faults, .error others => .error (faults ++ others)

/-- A field of a section, or its default where it is not set. -/
def readField {α : Type} (section_ name : String) (default : α) (read : Value → Except Fault α)
    (entries : List (Value × Value)) : Except (List FieldError) α :=
  match Value.field? name entries with
  | none => .ok default
  | some value =>
    match read value with
    | .ok result => .ok result
    | .error fault => .error [⟨[section_, name], fault⟩]

namespace ParserSettings

/-- The settings for reading an outline, from the entries of their section. -/
def ofEntries (entries : List (Value × Value)) : Except (List FieldError) ParserSettings :=
  (readField "parser" "indent_size" 2 (readBounded 1 (some 8)) entries).map fun size => ⟨size⟩

end ParserSettings

namespace RenderSettings

/-- The settings for drawing a diagram, from the entries of their section. -/
def ofEntries (entries : List (Value × Value)) : Except (List FieldError) RenderSettings :=
  let read := both (readField "render" "splines" "ortho" readSplines entries)
    (both (readField "render" "font_name" "arial narrow" readText entries)
      (both (readField "render" "wrap_width" 25 (readBounded 5 none) entries)
        (readField "render" "scale_font_by_size" true readFlag entries)))
  read.map fun fields => ⟨fields.1, fields.2.1, fields.2.2.1, fields.2.2.2⟩

end RenderSettings

/-- A section of the settings: its defaults where it is missing. -/
def readSection {α : Type} (name type : String) (default : α)
    (read : List (Value × Value) → Except (List FieldError) α)
    (entries : List (Value × Value)) : Except (List FieldError) α :=
  match Value.field? name entries with
  | none => .ok default
  | some (.map fields) => read fields
  | some _ => .error [⟨[name], .notSection type⟩]

namespace Settings

/-- The settings that the entries of a mapping give. Names without meaning are ignored. -/
def ofEntries (entries : List (Value × Value)) : Except (List FieldError) Settings :=
  (both (readSection "parser" "ParserConfig" {} ParserSettings.ofEntries entries)
    (readSection "render" "RenderConfig" {} RenderSettings.ofEntries entries)).map
    fun sections => ⟨sections.1, sections.2⟩

end Settings

end OutlineDiagram
