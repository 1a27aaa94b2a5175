/-
This file lists the edits that can be made to a document. An edit is data, so that
a session is a list of edits and a statement about all sessions is an induction
over that list.
-/

import OutlineDiagram.Document.Id
import OutlineDiagram.Document.Propagate

namespace OutlineDiagram

/-! ### Kinds of edits -/

/-- An edit aimed at one bullet. -/
inductive LineEdit where
  /-- Sets a visibility, on request not that of a hidden bullet. -/
  | setVisibility (visibility : Visibility) (leaveHidden : Bool)
  /-- Folds the bullet unless it is hidden. -/
  | fold
  /-- Makes the bullet normal unless it is hidden. -/
  | unfold
  /-- Hides the bullet. -/
  | hide
  /-- Makes the bullet normal. -/
  | unhide
  /-- Folds what is below the bullet, except for what is hidden. -/
  | foldChildren
  /-- Makes what is below the bullet normal, except for what is hidden. -/
  | unfoldChildren
  /-- Hides what is below the bullet. -/
  | hideChildren
  /-- Makes what is below the bullet normal, and the bullet too if it is hidden. -/
  | unhideChildren
  /-- Highlights the bullet, on request taking a highlight away instead. -/
  | highlight (toggle : Bool)
  /-- Shows the bullet folded, and highlights it on request. -/
  | reveal (highlight : Bool)
  /-- Shows the bullet and what it is linked with, on request also what is linked with the
  bullets above it. -/
  | connect (withAncestors : Bool)
  /-- Counts the bullet as edited. -/
  | markEdited
  deriving DecidableEq, Repr

/-- An edit of the whole document. -/
inductive WholeEdit where
  /-- Folds every bullet that is not hidden. -/
  | foldAll
  /-- Makes every bullet normal that is not hidden. -/
  | unfoldAll
  /-- Hides every bullet. -/
  | hideAll
  /-- Makes every bullet normal. -/
  | unhideAll
  /-- Pushes visibility down. -/
  | propagateVisibility
  deriving DecidableEq, Repr

/-- An edit of a document. Bullets are named by the numbers of their lines. -/
inductive Edit where
  /-- An edit of one bullet. -/
  | line (edit : LineEdit) (number : Int)
  /-- An edit of the whole document. -/
  | whole (edit : WholeEdit)
  /-- Gives a bullet an id of its own. -/
  | materializeId (number : Int)
  /-- Links one bullet to another. -/
  | link (source target : Int)
  /-- Drops unused ids and links to nothing. -/
  | cleanupIds
  deriving DecidableEq, Repr

/-! ### Making edits -/

namespace LineEdit

/-- The document after an edit of one bullet. -/
def apply (edit : LineEdit) (bullet : Line) (document : Document) : Document :=
  match edit with
  | setVisibility visibility leaveHidden =>
    document.setVisibility visibility leaveHidden bullet.index
  | fold => document.setVisibility .fold true bullet.index
  | unfold => document.setVisibility .normal true bullet.index
  | hide => document.setVisibility .hide false bullet.index
  | unhide => document.setVisibility .normal false bullet.index
  | foldChildren => document.setBelow .fold true bullet
  | unfoldChildren => document.setBelow .normal true bullet
  | hideChildren => document.setBelow .hide false bullet
  | unhideChildren => document.unhideBelow bullet
  | highlight toggle => document.highlight toggle bullet.index
  | reveal highlighted =>
    let revealed := document.reveal bullet
    if highlighted then revealed.highlight false bullet.index else revealed
  | connect withAncestors => document.connect withAncestors bullet
  | markEdited => document.markEdited bullet.index

end LineEdit

namespace WholeEdit

/-- The document after an edit of all of it. -/
def apply (edit : WholeEdit) (document : Document) : Document :=
  match edit with
  | foldAll => document.setAll .fold true
  | unfoldAll => document.setAll .normal true
  | hideAll => document.setAll .hide false
  | unhideAll => document.setAll .normal false
  | propagateVisibility => document.propagateVisibility

end WholeEdit

namespace Edit

/-- The document after an edit and what is reported of it; or why the edit cannot be made. Of two
bullets to be linked the source is looked up first. -/
def apply (edit : Edit) (document : Document) : Except EditError (Document × List Event) :=
  match edit with
  | line edit number => do
    let bullet ← document.bulletOn number
    .ok (edit.apply bullet document, [])
  | whole edit => .ok (edit.apply document, [])
  | materializeId number => do
    let bullet ← document.bulletOn number
    let named ← document.materializeId bullet
    .ok named.2
  | link source target => do
    let sourceBullet ← document.bulletOn source
    let targetBullet ← document.bulletOn target
    document.link sourceBullet targetBullet
  | cleanupIds => .ok (document.cleanupIds, [document.cleanupEvent])

end Edit

end OutlineDiagram
