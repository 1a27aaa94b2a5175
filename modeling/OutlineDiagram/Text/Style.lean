/-
This file reads the styles that tags name. A style is written in words: attributes,
a colour, a colour of the background after `on`, and the target of a link after
`link`. Two spellings of a style have one normal form, so that a style that was
switched on under one of them can be switched off under the other.
-/

import OutlineDiagram.Text.Digit
import OutlineDiagram.Text.Lower

namespace OutlineDiagram.Text

/-! ### Colours -/

/-- The reason why a style cannot be read. -/
inductive StyleError where
  /-- A word has no meaning where it stands. -/
  | unknownWord
  /-- A colour is given by numbers of which one is not written. -/
  | missingNumber
  deriving DecidableEq, Repr

/-- The names of colours but for those of grey. -/
def colourNames : List String :=
  ["aquamarine1", "aquamarine3", "black", "blue", "blue1", "blue3", "blue_violet", "bright_black",
    "bright_blue", "bright_cyan", "bright_green", "bright_magenta", "bright_red", "bright_white",
    "bright_yellow", "cadet_blue", "chartreuse1", "chartreuse2", "chartreuse3", "chartreuse4",
    "cornflower_blue", "cornsilk1", "cyan", "cyan1", "cyan2", "cyan3", "dark_blue", "dark_cyan",
    "dark_goldenrod", "dark_green", "dark_khaki", "dark_magenta", "dark_olive_green1",
    "dark_olive_green2", "dark_olive_green3", "dark_orange", "dark_orange3", "dark_red",
    "dark_sea_green", "dark_sea_green1", "dark_sea_green2", "dark_sea_green3", "dark_sea_green4",
    "dark_slate_gray1", "dark_slate_gray2", "dark_slate_gray3", "dark_turquoise", "dark_violet",
    "deep_pink1", "deep_pink2", "deep_pink3", "deep_pink4", "deep_sky_blue1", "deep_sky_blue2",
    "deep_sky_blue3", "deep_sky_blue4", "dodger_blue1", "dodger_blue2", "dodger_blue3", "gold1",
    "gold3", "green", "green1", "green3", "green4", "green_yellow", "honeydew2", "hot_pink",
    "hot_pink2", "hot_pink3", "indian_red", "indian_red1", "khaki1", "khaki3", "light_coral",
    "light_cyan1", "light_cyan3", "light_goldenrod1", "light_goldenrod2", "light_goldenrod3",
    "light_green", "light_pink1", "light_pink3", "light_pink4", "light_salmon1", "light_salmon3",
    "light_sea_green", "light_sky_blue1", "light_sky_blue3", "light_slate_blue", "light_slate_gray",
    "light_slate_grey", "light_steel_blue", "light_steel_blue1", "light_steel_blue3",
    "light_yellow3", "magenta", "magenta1", "magenta2", "magenta3", "medium_orchid",
    "medium_orchid1", "medium_orchid3", "medium_purple", "medium_purple1", "medium_purple2",
    "medium_purple3", "medium_purple4", "medium_spring_green", "medium_turquoise",
    "medium_violet_red", "misty_rose1", "misty_rose3", "navajo_white1", "navajo_white3",
    "navy_blue", "orange1", "orange3", "orange4", "orange_red1", "orchid", "orchid1", "orchid2",
    "pale_green1", "pale_green3", "pale_turquoise1", "pale_turquoise4", "pale_violet_red1", "pink1",
    "pink3", "plum1", "plum2", "plum3", "plum4", "purple", "purple3", "purple4", "red", "red1",
    "red3", "rosy_brown", "royal_blue1", "salmon1", "sandy_brown", "sea_green1", "sea_green2",
    "sea_green3", "sky_blue1", "sky_blue2", "sky_blue3", "slate_blue1", "slate_blue3",
    "spring_green1", "spring_green2", "spring_green3", "spring_green4", "steel_blue", "steel_blue1",
    "steel_blue3", "tan", "thistle1", "thistle3", "turquoise2", "turquoise4", "violet", "wheat1",
    "wheat4", "white", "yellow", "yellow1", "yellow2", "yellow3", "yellow4"]

/-- The numbers behind the names of grey, which come in two spellings. -/
def greyNumbers : List Nat :=
  [0, 3, 7, 11, 15, 19, 23, 27, 30, 35, 37, 39, 42, 46, 50, 53, 54, 58, 62, 63, 66, 69, 70, 74, 78,
    82, 84, 85, 89, 93, 100]

/-- The word is the name of a colour. -/
def isColourName (word : String) : Bool :=
  word == "default" || colourNames.contains word ||
    greyNumbers.any fun number =>
      word == "grey" ++ toString number || word == "gray" ++ toString number

/-- The text between an opening word and a closing parenthesis at the end. -/
def enclosed? (opening : String) (word : List Char) : Option (List Char) :=
  if opening.toList.isPrefixOf word && word.getLast? == some ')' then
    some ((word.drop opening.length).dropLast)
  else none

/-- The characters are the six hexadecimal digits of a colour. -/
def areColourDigits (digits : List Char) : Bool :=
  digits.length == 6 && digits.all fun digit => digit.isDigit || ('a' ≤ digit && digit ≤ 'f')

/-- The characters are the number of a colour in a palette. -/
def isPaletteNumber (digits : List Char) : Bool :=
  1 ≤ digits.length && digits.length ≤ 3 && digits.all Char.isDigit &&
    ((readInteger digits).any fun number => number ≤ 255)

/-- The parts of a text between commas. -/
def commaParts : List Char → List (List Char)
  | [] => [[]]
  | ',' :: rest => [] :: commaParts rest
  | first :: rest =>
    match commaParts rest with
    | [] => [[first]]
    | part :: others => (first :: part) :: others

/-- Checks the three numbers that make up a colour. -/
def checkMixture (body : List Char) : Except StyleError Unit :=
  if body.isEmpty || !body.all fun digit => digit == ',' || (digitValue? digit).isSome then
    .error .unknownWord
  else
    let parts := commaParts body
    if parts.length ≠ 3 then .error .unknownWord
    else if parts.any fun part => (readInteger part).isNone then .error .missingNumber
    else if parts.all fun part => (readInteger part).any fun number => number ≤ 255 then .ok ()
    else .error .unknownWord

/-- Checks a word for a colour: a name, digits, a number in a palette, or a mixture. -/
def checkColour (word : List Char) : Except StyleError Unit :=
  if isColourName (String.ofList word) then .ok ()
  else if word.head? == some '#' && areColourDigits (word.drop 1) then .ok ()
  else
    match enclosed? "color(" word, enclosed? "rgb(" word with
    | some digits, _ => if isPaletteNumber digits then .ok () else .error .unknownWord
    | none, some body => checkMixture body
    | none, none => .error .unknownWord

/-! ### Attributes -/

/-- The attributes, in the order of the normal form. -/
def attributeNames : List String :=
  ["bold", "dim", "italic", "underline", "blink", "blink2", "reverse", "conceal", "strike",
    "underline2", "frame", "encircle", "overline"]

/-- The short names of attributes. -/
def attributeShorts : List (String × String) :=
  [("b", "bold"), ("d", "dim"), ("i", "italic"), ("u", "underline"), ("r", "reverse"),
    ("c", "conceal"), ("s", "strike"), ("uu", "underline2"), ("o", "overline")]

/-- The attribute that a word names. -/
def attribute? (word : List Char) : Option String :=
  let name := String.ofList word
  if attributeNames.contains name then some name else attributeShorts.lookup name

/-! ### Styles -/

/-- A style. Of several settings for one thing the last one counts. -/
structure Style where
  /-- The attributes that are switched on or off, the last one first. -/
  attributes : List (String × Bool) := []
  /-- The colour. -/
  colour : Option (List Char) := none
  /-- The colour of the background. -/
  ground : Option (List Char) := none
  /-- The target of a link. -/
  link : Option (List Char) := none
  deriving DecidableEq, Repr, Inhabited

namespace Style

/-- The style with the settings that words add to it. -/
def add (style : Style) : List (List Char) → Except StyleError Style
  | [] => .ok style
  | word :: rest =>
    let lowered := lower word
    if lowered = "on".toList then
      match rest with
      | [] => .error .unknownWord
      | next :: others => do
        checkColour (lower next)
        add { style with ground := some (lower next) } others
    else if lowered = "not".toList then
      match rest with
      | [] => .error .unknownWord
      | next :: others =>
        match attribute? next with
        | some name => add { style with attributes := (name, false) :: style.attributes } others
        | none => .error .unknownWord
    else if lowered = "link".toList then
      match rest with
      | [] => .error .unknownWord
      | next :: others => add { style with link := some next } others
    else
      match attribute? lowered with
      | some name => add { style with attributes := (name, true) :: style.attributes } rest
      | none => do
        checkColour lowered
        add { style with colour := some lowered } rest

/-- The style that a text writes. -/
def read (text : List Char) : Except StyleError Style :=
  if trim text = "none".toList then .ok {} else add {} (words text)

/-- A number is missing where a text writes a style. -/
def lacksNumber (text : List Char) : Bool :=
  match read text with
  | .error .missingNumber => true
  | _ => false

/-- The words of the normal form of a style. -/
def normalWords (style : Style) : List (List Char) :=
  (attributeNames.flatMap fun name =>
    match style.attributes.lookup name with
    | some true => [name.toList]
    | some false => ["not".toList, name.toList]
    | none => []) ++
    style.colour.toList ++
    (style.ground.map fun word => ["on".toList, word]).getD [] ++
    (style.link.map fun word => ["link".toList, word]).getD []

/-- The normal form of a style. -/
def normalText (style : Style) : List Char :=
  match style.normalWords with
  | [] => "none".toList
  | written => [' '].intercalate written

end Style

/-- The normal form of the name of a style. A name without meaning is only written in lower
case. -/
def normalName (name : List Char) : Except StyleError (List Char) :=
  match Style.read name with
  | .ok style => .ok style.normalText
  | .error .unknownWord => .ok (lower (trim name))
  | .error .missingNumber => .error .missingNumber

end OutlineDiagram.Text
