/-
This file holds the values that a settings file can contain. Of a floating-point
number only what settings ask for is kept: which whole number it is, or why it is
none. Sets and bytes are here for readers that know of tags.
-/

namespace OutlineDiagram.Yaml

/-- A floating-point number, as far as it can stand for a whole number. -/
inductive FloatNumber where
  /-- A whole number. -/
  | whole (value : Int)
  /-- A number with a fractional part. -/
  | fractional
  /-- Infinity, or no number at all. -/
  | notFinite
  deriving DecidableEq, Repr, Inhabited

/-- A value. What stands in several places, or within itself, is written out in each of them, as
deep as it is looked at. -/
inductive Value where
  /-- Nothing. -/
  | null
  /-- A truth value. -/
  | bool (value : Bool)
  /-- A whole number. -/
  | int (value : Int)
  /-- A floating-point number. -/
  | float (value : FloatNumber)
  /-- A text. -/
  | string (value : String)
  /-- Bytes that are no text. -/
  | bytes (content : List UInt8)
  /-- A date, with or without a time. -/
  | date
  /-- A list. -/
  | list (items : List Value)
  /-- A set. -/
  | set (items : List Value)
  /-- A mapping. Of several entries for a key the last one counts. -/
  | map (entries : List (Value × Value))
  deriving Repr, Inhabited

namespace Value

/-- Nothing, false, zero, or something without content. -/
def isEmpty : Value → Bool
  | null => true
  | bool value => !value
  | int value => value == 0
  | float value => value == .whole 0
  | string value => value == ""
  | bytes content => content.isEmpty
  | date => false
  | list items | set items => items.isEmpty
  | map entries => entries.isEmpty

/-- The text that a value is. -/
def text? : Value → Option String
  | string value => some value
  | _ => none

/-- Some name is no text. -/
def hasOddName (entries : List (Value × Value)) : Bool :=
  entries.any fun entry => entry.1.text?.isNone

/-- The value that a mapping's entries give to a name. -/
def field? (name : String) (entries : List (Value × Value)) : Option Value :=
  (entries.reverse.find? fun entry => entry.1.text? == some name).map Prod.snd

/-- The entries with one more, which counts before all others for its name. -/
def withField (name : String) (value : Value) (entries : List (Value × Value)) :
    List (Value × Value) :=
  entries ++ [(string name, value)]

/-- A name has the value that it was given last. -/
theorem field?_withField (name other : String) (value : Value) (entries : List (Value × Value)) :
    field? other (withField name value entries) =
      if name = other then some value else field? other entries := by
  by_cases same : name = other
  · simp [field?, withField, text?, same]
  · have different : (some name == some other) = false := by simpa using same
    rw [if_neg same, field?, withField, List.reverse_append]
    simp only [List.reverse_cons, List.reverse_nil, List.nil_append, List.singleton_append,
      List.find?_cons]
    rw [show ((string name, value).1.text? == some other) = false from different]
    rfl

end Value

end OutlineDiagram.Yaml
