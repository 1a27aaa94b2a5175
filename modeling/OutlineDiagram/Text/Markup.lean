/-
This file says what a console shows of a text. Consoles take a name between
brackets, such as one of a colour, for a tag that switches a style on or off and is
not shown itself. A backslash before a tag makes it plain text, and one before a
bracket that starts no tag is not shown. A text is shown in one of two ways: as
markup, whose tags have to make sense, or protected, so that its tags are plain text.
-/

import OutlineDiagram.Text.Column
import OutlineDiagram.Text.Literal
import OutlineDiagram.Text.Style

namespace OutlineDiagram.Text

/-! ### Tags -/

/-- The character can be the first of a tag. -/
def startsTag (character : Char) : Bool :=
  ('a' ≤ character && character ≤ 'z') || ['#', '/', '@'].contains character

/-- The character goes on with a tag: it is no bracket. -/
def continuesTag (character : Char) : Bool := character ≠ '[' && character ≠ ']'

/-- The name of the tag after an opening bracket and the text after the tag, if it is a tag. -/
def cutTag : List Char → Option (List Char × List Char)
  | [] => none
  | first :: rest =>
    if startsTag first then
      match rest.dropWhile continuesTag with
      | ']' :: after => some (first :: rest.takeWhile continuesTag, after)
      | _ => none
    else none

/-- The text after a tag is shorter than what the tag was cut from. -/
theorem length_lt_of_cutTag {text name after : List Char} (cut : cutTag text = some (name, after)) :
    after.length < text.length := by
  match text with
  | [] => simp [cutTag] at cut
  | first :: rest =>
    simp only [cutTag] at cut
    split at cut
    · split at cut
      · rename_i found
        have shorter := (List.dropWhile_suffix continuesTag (l := rest)).length_le
        rw [found] at shorter
        simp only [Option.some.injEq, Prod.mk.injEq] at cut
        rw [← cut.2]
        simp only [List.length_cons] at shorter ⊢
        omega
      · simp at cut
    · simp at cut

/-! ### Pieces -/

/-- A piece of a text that is cut at its tags. -/
inductive Piece where
  /-- What is shown of the text around tags. -/
  | plain (shown : List Char)
  /-- A tag, and how many backslashes are before it. -/
  | tag (backslashes : Nat) (content : List Char)
  deriving DecidableEq, Repr

/-- The pieces of a text after some backslashes. The last backslash before a bracket that starts no
tag is not shown. -/
def piecesAfter : (backslashes : Nat) → List Char → List Piece
  | backslashes, [] => [.plain (List.replicate backslashes '\\')]
  | backslashes, first :: rest =>
    if first = '\\' then piecesAfter (backslashes + 1) rest
    else if first = '[' then
      match _cut : cutTag rest with
      | some (content, after) => .tag backslashes content :: piecesAfter 0 after
      | none => .plain (List.replicate (backslashes - 1) '\\' ++ ['[']) :: piecesAfter 0 rest
    else .plain (List.replicate backslashes '\\' ++ [first]) :: piecesAfter 0 rest
termination_by _ text => text.length
decreasing_by
  · simp
  · have := length_lt_of_cutTag _cut
    simp only [List.length_cons]
    omega
  · simp
  · simp

/-- The pieces of a text. -/
def pieces (text : List Char) : List Piece := piecesAfter 0 text

/-! ### Tags that are switched on -/

/-- The reason why a text is no markup. -/
inductive MarkupError where
  /-- A tag switches off what is not on. -/
  | notOpen
  /-- What a tag of an action hands over to the action is no constant value. -/
  | notConstant
  /-- The style of a tag cannot be worked out. -/
  | badStyle
  deriving DecidableEq, Repr

namespace MarkupError

/-- What is reported of an error. -/
def message : MarkupError → String
  | notOpen => "A closing tag does not match any open tag"
  | notConstant => "A tag has parameters that are no constant values"
  | badStyle => "A tag names a colour without its numbers"

end MarkupError

/-- A tag that is switched on. -/
structure OpenTag where
  /-- The normal form of its name. -/
  name : List Char
  /-- The text after an equals sign, if there is one. -/
  parameters : Option (List Char)
  deriving DecidableEq, Repr

/-- The style that a tag switches on, as a text. -/
def OpenTag.styleText (tag : OpenTag) : List Char :=
  match tag.parameters with
  | none => tag.name
  | some parameters => tag.name ++ ' ' :: parameters

/-- The name of a tag and the text after its first equals sign, if there is one. -/
def cutParameters (content : List Char) : List Char × Option (List Char) :=
  match content.dropWhile (· != '=') with
  | [] => (content, none)
  | _ :: parameters => (content.takeWhile (· != '='), some parameters)

/-- A name that a tag may be switched off by. -/
def nameOf (text : List Char) : Except MarkupError (List Char) :=
  (normalName text).mapError fun _ => .badStyle

/-- The tag of a name that was switched on last, and the other tags. -/
def takeOpen (name : List Char) : List OpenTag → Option (OpenTag × List OpenTag)
  | [] => none
  | tag :: others =>
    if tag.name = name then some (tag, others)
    else (takeOpen name others).map fun found => (found.1, tag :: found.2)

/-- The tag that a name switches off, and the others. Without a name it is the last one. -/
def closeTag (name : List Char) (openTags : List OpenTag) :
    Except MarkupError (OpenTag × List OpenTag) := do
  let found ←
    if name.isEmpty then
      match openTags with
      | [] => .ok none
      | tag :: others => .ok (some (tag, others))
    else (nameOf name).map fun normal => takeOpen normal openTags
  match found with
  | some closed => .ok closed
  | none => .error .notOpen

/-! ### Actions -/

/-- The character may be in the name of an action: a letter, a digit, an underscore, a point, or
any character outside ASCII. -/
def isActionCharacter (character : Char) : Bool :=
  character.isAlphanum || character == '_' || character == '.' || 0x80 ≤ character.toNat

/-- What the parameters of a tag hand over to an action: what is between parentheses after the name
of the action, or else all of them. -/
def handedOver (parameters : List Char) : List Char :=
  match parameters.dropWhile isActionCharacter with
  | [] => "()".toList
  | after =>
    if after.head? = some '(' && 2 ≤ after.length && after.getLast? = some ')' &&
        !after.contains '\n' then after
    else parameters

/-- Checks a tag that was switched off, and gives the style that it had been switched on for. The
tag of an action has none. -/
def closedStyle (tag : OpenTag) : Except MarkupError (List (List Char)) :=
  if tag.name.head? = some '@' then
    match tag.parameters with
    | none | some [] => .ok []
    | some parameters =>
      if isLiteral (handedOver (trim parameters)) then .ok [] else .error .notConstant
  else .ok [tag.styleText]

/-! ### What is shown -/

/-- What is shown of pieces after some tags were switched on, and the styles that parts of it
have. -/
def follow : List OpenTag → List Piece → Except MarkupError (List Char × List (List Char))
  | openTags, [] => .ok ([], openTags.map OpenTag.styleText)
  | openTags, .plain shown :: rest =>
    (follow openTags rest).map fun later => (shown ++ later.1, later.2)
  | openTags, .tag backslashes content :: rest => do
    let slashes := List.replicate (backslashes / 2) '\\'
    if backslashes % 2 = 1 then
      let later ← follow openTags rest
      .ok (slashes ++ '[' :: content ++ ']' :: later.1, later.2)
    else
      let cut := cutParameters content
      match cut.1 with
      | '/' :: name =>
        let closed ← closeTag (trim name) openTags
        let styles ← closedStyle closed.1
        let later ← follow closed.2 rest
        .ok (slashes ++ later.1, styles ++ later.2)
      | _ =>
        let name ← nameOf cut.1
        let later ← follow (⟨name, cut.2⟩ :: openTags) rest
        .ok (slashes ++ later.1, later.2)

/-- The control characters that a console does not show: they ring, or move the place of writing. -/
def isSilent (character : Char) : Bool := [0x07, 0x08, 0x0B, 0x0C, 0x0D].contains character.toNat

/-- The text without the control characters that are not shown. -/
def withoutSilent (text : List Char) : List Char := text.filter fun character => !isSilent character

/-- What is shown of a markup text. -/
def showMarkup (text : List Char) : Except MarkupError (List Char) := do
  let shown ← follow [] (pieces text)
  if shown.2.any Style.lacksNumber then .error .badStyle
  else .ok (withoutSilent shown.1)

/-- The text ends with one backslash and not with two. -/
def endsWithLoneBackslash (text : List Char) : Bool :=
  match text.reverse with
  | '\\' :: '\\' :: _ => false
  | '\\' :: _ => true
  | _ => false

/-- A piece as it stands in a protected text. -/
def Piece.whole : Piece → List Char
  | plain shown => shown
  | tag backslashes content => List.replicate backslashes '\\' ++ '[' :: content ++ [']']

/-- What is shown of a protected text: its tags, and the backslashes before them, are plain text. A
single backslash at the end is protected by another one, which is shown too. -/
def showProtected (text : List Char) : List Char :=
  withoutSilent ((pieces (if endsWithLoneBackslash text then text ++ ['\\'] else text)).flatMap
    Piece.whole)

/-! ### Lines -/

/-- The lines between the newlines of a text. -/
def newlineParts : List Char → List (List Char)
  | [] => [[]]
  | first :: rest =>
    if first = '\n' then [] :: newlineParts rest
    else
      match newlineParts rest with
      | [] => [[first]]
      | line :: others => (first :: line) :: others

/-- The lines that a console shows of a text, with blanks in place of tabs. -/
def consoleLines (shown : List Char) : List String :=
  (newlineParts shown).map fun line => String.ofList (expandTabs 0 line)

/-- The lines that a console shows of a markup text. -/
def markupLines (text : List Char) : Except MarkupError (List String) :=
  (showMarkup text).map consoleLines

end OutlineDiagram.Text
