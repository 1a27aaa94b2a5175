/-
This file says how the bullets of a document relate. Depth decides what is above
and what is below a bullet, even where the indentation is not legal; ids decide
what a bullet is linked with.
-/

import OutlineDiagram.Document.Basic
import OutlineDiagram.Unique

namespace OutlineDiagram

/-! ### Runs of lines -/

/-- The first bullet of a run of lines is deeper than a given depth. -/
def startsDeeper (depth : Int) (following : List Line) : Bool :=
  match bulletsOf following with
  | [] => false
  | next :: _ => depth < next.depth

/-- The leading bullets of a run of lines that are deeper than a given depth. -/
def deeperRun (depth : Int) (following : List Line) : List Line :=
  (bulletsOf following).takeWhile fun bullet => depth < bullet.depth

/-- The bullets, closest first, each of which is the first one less deep than the one before it.
The lines are given closest first, and the first bullet is sought below a given depth. -/
def shallowerChain : Int → List Line → List Line
  | _, [] => []
  | depth, line :: rest =>
    if line.isBullet && line.depth < depth then line :: shallowerChain line.depth rest
    else shallowerChain depth rest

namespace Document

/-! ### Above and below -/

/-- The lines before a line. -/
def linesBefore (document : Document) (line : Line) : List Line :=
  document.lines.takeWhile fun other => other.index != line.index

/-- The lines after a line. -/
def linesAfter (document : Document) (line : Line) : List Line :=
  (document.lines.dropWhile fun other => other.index != line.index).drop 1

/-- The next bullet is deeper. -/
def isParent (document : Document) (line : Line) : Bool :=
  startsDeeper line.depth (document.linesAfter line)

/-- The bullets above a bullet, closest first. -/
def ancestors (document : Document) (line : Line) : List Line :=
  shallowerChain line.depth (document.linesBefore line).reverse

/-- The closest bullet above a bullet. -/
def parent? (document : Document) (line : Line) : Option Line := (document.ancestors line).head?

/-- The bullets below a bullet, in order. -/
def descendants (document : Document) (line : Line) : List Line :=
  deeperRun line.depth (document.linesAfter line)

/-! ### Links -/

/-- Some link of a bullet names an id. -/
def mentions (line : Line) (id : String) : Bool := line.idsIn.contains id || line.idsOut.contains id

/-- The bullets that a bullet links to or that link to it, without repeats and without the bullet
itself: first those that it names, then those that name it. -/
def connections (document : Document) (line : Line) : List Line :=
  let named := line.linkIds.filterMap document.findById?
  let naming := document.bullets.filter fun other => mentions other line.id
  uniqueBy (fun first second => first.index == second.index)
    ((named ++ naming).filter fun other => other.index != line.index)

end Document

end OutlineDiagram
