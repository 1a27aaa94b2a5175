/-
This file edits what a document shows: it folds, hides and highlights bullets. A
bullet without anything below it is never folded, and hiding a bullet takes its
highlight away.
-/

import OutlineDiagram.Document.Navigate

namespace OutlineDiagram

namespace Line

/-- The bullet with a visibility. Folding a bullet that has nothing below it makes it normal. -/
def withVisibility (visibility : Visibility) (isParent : Bool) (line : Line) : Line :=
  { line with
    isHighlighted := line.isHighlighted && visibility != .hide
    visibility := if visibility = .fold ∧ isParent = false then .normal else visibility }

end Line

namespace Document

/-! ### Single lines -/

/-- The entry with its line changed, and edited by that, if it is at a position. -/
def changeEntry (index : Int) (change : Line → Line) : Entry → Entry
  | .parsed line isEdited =>
    if line.index == index then .parsed (change line) true else .parsed line isEdited
  | entry => entry

/-- The document with the line at a position changed. -/
def changeLine (index : Int) (change : Line → Line) (document : Document) : Document :=
  { document with entries := document.entries.map (changeEntry index change) }

/-- The document in which the line at a position counts as edited. -/
def markEdited (index : Int) (document : Document) : Document := document.changeLine index id

/-- The document with a visibility set at a position. On request a hidden bullet is left alone. -/
def setVisibility (visibility : Visibility) (leaveHidden : Bool) (index : Int)
    (document : Document) : Document :=
  match document.lineAt? index with
  | none => document
  | some line =>
    if leaveHidden && line.visibility == .hide then document
    else document.changeLine index (Line.withVisibility visibility (document.isParent line))

/-- The document with a visibility set at several lines, one after the other. -/
def setVisibilities (visibility : Visibility) (leaveHidden : Bool) (targets : List Line)
    (document : Document) : Document :=
  targets.foldl (fun sofar line => sofar.setVisibility visibility leaveHidden line.index) document

/-! ### Highlights -/

/-- The document with a bullet highlighted; on request a highlight is taken away instead. -/
def highlight (toggle : Bool) (index : Int) (document : Document) : Document :=
  document.changeLine index fun line =>
    { line with isHighlighted := if toggle then !line.isHighlighted else true }

/-! ### Below a bullet -/

/-- The document with a visibility set at everything below a bullet. -/
def setBelow (visibility : Visibility) (leaveHidden : Bool) (line : Line) (document : Document) :
    Document :=
  document.setVisibilities visibility leaveHidden (document.descendants line)

/-- The document with everything below a bullet shown, and the bullet itself if it is hidden. -/
def unhideBelow (line : Line) (document : Document) : Document :=
  let isHidden := ((document.lineAt? line.index).map fun now => now.visibility == .hide).getD false
  let opened := if isHidden then document.setVisibility .normal false line.index else document
  opened.setBelow .normal false line

/-! ### Revealing -/

/-- The document in which all bullets above a bullet are open, the bullet is folded and nothing
below it is hidden. -/
def reveal (line : Line) (document : Document) : Document :=
  ((document.setVisibilities .normal false (document.ancestors line)).setVisibility
    .fold false line.index).unhideBelow line

/-- The bullets linked with a bullet or with one below it, and on request with one above it. -/
def connectedWith (withAncestors : Bool) (line : Line) (document : Document) : List Line :=
  document.connections line ++
    (document.descendants line).flatMap document.connections ++
    if withAncestors then (document.ancestors line).flatMap document.connections else []

/-- The document in which a bullet is revealed and highlighted and everything that it is linked
with is revealed. -/
def connect (withAncestors : Bool) (line : Line) (document : Document) : Document :=
  let others := uniqueBy (fun first second => first.index == second.index)
    ((document.connectedWith withAncestors line).filter fun other => other.index != line.index)
  (others.foldl (fun sofar other => sofar.reveal other) (document.reveal line)).highlight false
    line.index

/-- The document with a visibility set at every bullet. -/
def setAll (visibility : Visibility) (leaveHidden : Bool) (document : Document) : Document :=
  document.setVisibilities visibility leaveHidden document.bullets

end Document

end OutlineDiagram
