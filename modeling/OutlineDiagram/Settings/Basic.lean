/-
This file says what can be set and what holds when nothing is.
-/

namespace OutlineDiagram

/-- The settings for reading an outline. -/
structure ParserSettings where
  /-- The number of blanks in one unit of indentation. -/
  indentSize : Int := 2
  deriving DecidableEq, Repr, Inhabited

/-- The settings for drawing a diagram. -/
structure RenderSettings where
  /-- How edges are routed. -/
  splines : String := "ortho"
  /-- The font of all text. -/
  fontName : String := "arial narrow"
  /-- The number of characters that a line of a label should have. -/
  wrapWidth : Int := 25
  /-- Nodes with more below them have a larger font. -/
  scaleFont : Bool := true
  deriving DecidableEq, Repr, Inhabited

/-- All settings. -/
structure Settings where
  /-- The settings for reading an outline. -/
  parser : ParserSettings := {}
  /-- The settings for drawing a diagram. -/
  render : RenderSettings := {}
  deriving DecidableEq, Repr, Inhabited

end OutlineDiagram
