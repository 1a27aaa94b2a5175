/-
This file says what a line of an outline is. A bullet line has a depth, a kind, a
label and metadata; comments, script lines and blank lines have a place in the
outline and no depth.
-/

namespace OutlineDiagram

/-! ### Kinds and marks -/

/-- The kind of a bullet, given by the character before its label. -/
inductive BulletKind where
  /-- An ordinary node. -/
  | data
  /-- A step of a process, chained to the step before it. -/
  | flow
  /-- A node that starts a chain and is never chained to what comes before it. -/
  | flowBreak
  deriving DecidableEq, Repr, Inhabited

namespace BulletKind

/-- The character that writes a kind. -/
def mark : BulletKind → Char
  | data => '-'
  | flow => '>'
  | flowBreak => '<'

/-- The kind that a character writes. -/
def ofMark? : Char → Option BulletKind
  | '-' => some data
  | '>' => some flow
  | '<' => some flowBreak
  | _ => none

end BulletKind

/-- How much of a bullet and its subtree a diagram shows. -/
inductive Visibility where
  /-- The bullet is shown. -/
  | normal
  /-- The bullet is shown and its descendants are not. -/
  | fold
  /-- The bullet lies under a folded one. -/
  | foldHidden
  /-- Neither the bullet nor its descendants are shown. -/
  | hide
  deriving DecidableEq, Repr, Inhabited

namespace Visibility

/-- The token that writes a visibility. The normal one is not written. -/
def token : Visibility → String
  | normal => ""
  | fold => "[+]"
  | foldHidden => "[++]"
  | hide => "[x]"

/-- The visibility that a token writes. -/
def ofToken? (token : String) : Option Visibility :=
  [fold, foldHidden, hide].find? fun visibility => visibility.token == token

end Visibility

/-! ### Lines -/

/-- What the metadata section of a line says. -/
structure Metadata where
  /-- The visibility of the bullet. -/
  visibility : Visibility := .normal
  /-- The bullet is highlighted. -/
  isHighlighted : Bool := false
  /-- The id written for the bullet. -/
  explicitId : Option String := none
  /-- The ids of the bullets that link to this one. -/
  idsIn : List String := []
  /-- The ids of the bullets that this one links to. -/
  idsOut : List String := []
  deriving DecidableEq, Repr, Inhabited

/-- One line of an outline. -/
structure Line extends Metadata where
  /-- The line as it was written. -/
  text : String := ""
  /-- The position of the line in the outline, counted from zero. -/
  index : Int := -1
  /-- The line is a comment. -/
  isComment : Bool := false
  /-- The line belongs to a script. -/
  isScript : Bool := false
  /-- The number of indentation units before the bullet; negative where there is no bullet. -/
  depth : Int := -1
  /-- The kind of the bullet. -/
  kind : BulletKind := .data
  /-- The label of the bullet. -/
  label : String := ""
  /-- The id that stands in while none is written. -/
  placeholderId : String := ""
  /-- The line has a metadata section. -/
  hasSection : Bool := false
  deriving DecidableEq, Repr, Inhabited

namespace Metadata

/-- The written id. An empty one counts as none. -/
def ownId? (metadata : Metadata) : Option String := metadata.explicitId.filter (· != "")

/-- The ids of all links, incoming ones first. -/
def linkIds (metadata : Metadata) : List String := metadata.idsIn ++ metadata.idsOut

end Metadata

namespace Line

/-- The id of a bullet: the written one, else the placeholder. -/
def id (line : Line) : String := line.ownId?.getD line.placeholderId

/-- No id is written for the bullet. -/
def hasPlaceholder (line : Line) : Bool := line.ownId?.isNone

/-- The line is a bullet and takes part in the graph. -/
def isBullet (line : Line) : Bool := !line.isComment && !line.isScript && 0 ≤ line.depth

/-- The number of the line as people count it, from one. -/
def number (line : Line) : Int := line.index + 1

end Line

/-- A bullet is not above the top. -/
theorem depth_nonneg_of_isBullet {line : Line} (bullet : line.isBullet = true) :
    0 ≤ line.depth := by
  simp only [Line.isBullet, Bool.and_eq_true, decide_eq_true_eq] at bullet
  exact bullet.2

/-- The bullets among the lines, in order. -/
def bulletsOf (lines : List Line) : List Line := lines.filter Line.isBullet

end OutlineDiagram
