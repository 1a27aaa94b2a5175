/-
This file pushes visibility down. Bullets below a hidden one become hidden and
bullets below a folded one become fold-hidden; a bullet that is fold-hidden though
no fold is above it becomes a fold itself. One pass over the lines suffices, with
the depths of the hidden and of the folded bullet that are open.
-/

import OutlineDiagram.Document.Mark

namespace OutlineDiagram

/-- The subtrees that a pass over the lines is in. -/
structure OpenMarks where
  /-- The depth of the hidden bullet that the pass is below of. -/
  hideDepth? : Option Int := none
  /-- The depth of the folded bullet that the pass is below of. -/
  foldDepth? : Option Int := none
  deriving DecidableEq, Repr, Inhabited

namespace OpenMarks

/-- The subtrees that a bullet of a given depth is in. -/
def reach (depth : Int) (marks : OpenMarks) : OpenMarks where
  hideDepth? := marks.hideDepth?.filter fun hideDepth => hideDepth < depth
  foldDepth? := marks.foldDepth?.filter fun foldDepth => foldDepth < depth

/-- What a pass makes of one bullet: the bullet changed, if it has to be, and the subtrees that
what follows may be in. -/
def visit (isParent : Bool) (line : Line) (marks : OpenMarks) : Option Line × OpenMarks :=
  if marks.hideDepth?.isSome then
    (if line.visibility ≠ .hide ∨ line.isHighlighted then
      some (line.withVisibility .hide isParent) else none, marks)
  else if marks.foldDepth?.isSome then
    (if line.visibility = .foldHidden ∨ line.visibility = .hide then none
      else some (line.withVisibility .foldHidden isParent), marks)
  else
    match line.visibility with
    | .normal => (none, marks)
    | .hide => (none, { marks with hideDepth? := some line.depth })
    | .fold => (none, { marks with foldDepth? := some line.depth })
    | .foldHidden =>
      (some (line.withVisibility .fold isParent),
        if isParent then { marks with foldDepth? := some line.depth } else marks)

end OpenMarks

/-- The entries after a pass over them. -/
def propagateEntries : OpenMarks → List Entry → List Entry
  | _, [] => []
  | marks, .parsed line isEdited :: rest =>
    if line.isBullet then
      let isParent := startsDeeper line.depth (rest.filterMap Entry.line?)
      let visited := (marks.reach line.depth).visit isParent line
      (match visited.1 with
        | some changed => Entry.parsed changed true
        | none => Entry.parsed line isEdited) :: propagateEntries visited.2 rest
    else .parsed line isEdited :: propagateEntries marks rest
  | marks, entry :: rest => entry :: propagateEntries marks rest

namespace Document

/-- The document with visibility pushed down. -/
def propagateVisibility (document : Document) : Document :=
  { document with entries := propagateEntries {} document.entries }

end Document

end OutlineDiagram
