/-
This file says what can be wrong with a setting, and how that is reported.
-/

namespace OutlineDiagram

/-! ### Faults -/

/-- What is wrong with a field. -/
inductive Fault where
  /-- A section is no mapping. -/
  | notSection (type : String)
  /-- A value is no whole number. -/
  | notInteger
  /-- A text does not write a whole number. -/
  | unreadableInteger
  /-- A number has a fractional part. -/
  | fractional
  /-- A number is infinite, or none at all. -/
  | notFinite
  /-- A number has too many digits. -/
  | oversized
  /-- A number is too small. -/
  | belowLeast (bound : Int)
  /-- A number is too large. -/
  | aboveGreatest (bound : Int)
  /-- A value is no text. -/
  | notText
  /-- Edges cannot be routed so. -/
  | unknownSplines (value : String)
  /-- A value is no truth value. -/
  | notFlag
  /-- A value does not write a truth value. -/
  | unreadableFlag
  deriving DecidableEq, Repr

/-- The ways in which edges can be routed, in alphabetical order. -/
def splinesNames : List String :=
  ["curved", "false", "line", "none", "ortho", "polyline", "spline", "true"]

namespace Fault

/-- The name of a kind of fault. -/
def code : Fault → String
  | notSection _ => "model_type"
  | notInteger => "int_type"
  | unreadableInteger => "int_parsing"
  | fractional => "int_from_float"
  | notFinite => "finite_number"
  | oversized => "int_parsing_size"
  | belowLeast _ => "greater_than_equal"
  | aboveGreatest _ => "less_than_equal"
  | notText => "string_type"
  | unknownSplines _ => "value_error"
  | notFlag => "bool_type"
  | unreadableFlag => "bool_parsing"

/-- What is reported of a fault. -/
def message : Fault → String
  | notSection type => "Input should be a valid dictionary or instance of " ++ type
  | notInteger => "Input should be a valid integer"
  | unreadableInteger => "Input should be a valid integer, unable to parse string as an integer"
  | fractional => "Input should be a valid integer, got a number with a fractional part"
  | notFinite => "Input should be a finite number"
  | oversized => "Unable to parse input string as an integer, exceeded maximum size"
  | belowLeast bound => "Input should be greater than or equal to " ++ toString bound
  | aboveGreatest bound => "Input should be less than or equal to " ++ toString bound
  | notText => "Input should be a valid string"
  | unknownSplines value =>
    "Value error, Unknown splines value: " ++ value ++ "\nExpected one of: " ++
      ", ".intercalate splinesNames
  | notFlag => "Input should be a valid boolean"
  | unreadableFlag => "Input should be a valid boolean, unable to interpret input"

end Fault

/-- A fault and where it is. -/
structure FieldError where
  /-- The names that lead to the field. -/
  location : List String
  /-- What is wrong there. -/
  fault : Fault
  deriving DecidableEq, Repr

end OutlineDiagram
