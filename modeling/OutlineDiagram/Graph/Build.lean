/-
This file builds the graph of an outline, bullet by bullet. Indentation decides the
forest: at any time the last bullet and those above it can receive the next bullet,
each at the depth that is one more than its own. A bullet that is indented by more
than one level below the bullet before it finds no parent, and then the outline has
no graph, since no parent is ever guessed.
-/

import OutlineDiagram.Event
import OutlineDiagram.Forest.Address
import OutlineDiagram.Graph.Basic

namespace OutlineDiagram

/-! ### Indentation -/

/-- A bullet that is indented too far. -/
structure StructureError where
  /-- The position of its line. -/
  lineIndex : Int
  /-- Its depth. -/
  depth : Int
  /-- The greatest depth allowed there. -/
  maxDepth : Int
  deriving DecidableEq, Repr

namespace StructureError

/-- What is reported to the author of the outline. -/
def message (error : StructureError) : String :=
  "Bad indentation at line " ++ toString (error.lineIndex + 1) ++ ": indented to level " ++
    toString error.depth ++ " but at most level " ++ toString error.maxDepth ++
    " is allowed here. A bullet cannot be indented by more than one level at a time."

/-- The event that reports the error. -/
def event (error : StructureError) : Event :=
  .badIndentation (error.lineIndex + 1) error.depth error.maxDepth

end StructureError

/-! ### Links -/

/-- The links of a bullet, incoming ones first. A link of the bullet to itself says nothing. -/
def authoredLinks (bullet : Line) : List Edge :=
  ((bullet.idsIn.filter (· != bullet.id)).map fun source => ⟨source, bullet.id, .link, true⟩) ++
    (bullet.idsOut.filter (· != bullet.id)).map fun destination =>
      ⟨bullet.id, destination, .link, true⟩

/-! ### Building -/

/-- What is known between two lines of an outline: the graph of the bullets so far, and where the
next bullet can go. -/
structure Building extends Graph where
  /-- The address of the top, and then of the last bullet and those above it, from the top down.
  A bullet goes below the address that its depth counts. -/
  parents : List (List Nat) := [[]]
  /-- The written ids so far. -/
  declared : List String := []
  /-- What was reported so far. -/
  events : List Event := []

namespace Building

/-- The greatest depth that the next bullet may have. -/
def maxDepth (building : Building) : Int := building.parents.length - 1

theorem toNat_lt_length_parents {building : Building} {line : Line} (bullet : line.isBullet = true)
    (allowed : ¬ building.maxDepth < line.depth) :
    line.depth.toNat < building.parents.length := by
  have nonneg : 0 ≤ line.depth := depth_nonneg_of_isBullet bullet
  rw [maxDepth] at allowed
  omega

/-- A bullet is put below a parent, given by its place among the parents. What is deeper than the
bullet can receive nothing any more, and the bullet itself can. -/
def put (building : Building) (bullet : Line) (place : Nat)
    (bound : place < building.parents.length) : Building :=
  let parent := building.parents[place]
  { building with
    forest := building.forest.addAt (Node.ofLine bullet) parent
    parents := building.parents.take (place + 1) ++ [building.forest.nextAddress parent] }

/-- A written id is noted, and reported if it was written before. -/
def declare (building : Building) (bullet : Line) : Building :=
  match bullet.ownId? with
  | none => building
  | some id =>
    if building.declared.contains id then
      { building with
        duplicateIds := building.duplicateIds.insert id
        events := building.events ++ [.duplicateId id bullet.number] }
    else { building with declared := id :: building.declared }

/-- The links of a bullet are added. -/
def connect (building : Building) (bullet : Line) : Building :=
  { building with links := building.links.addEdges (authoredLinks bullet) }

/-- The marker of a bullet is noted for its id. -/
def mark (building : Building) (bullet : Line) : Building :=
  match bullet.visibility with
  | .fold => { building with foldIds := building.foldIds.insert bullet.id }
  | .hide => { building with hideIds := building.hideIds.insert bullet.id }
  | _ => building

/-- What a bullet says about ids is noted. -/
def note (building : Building) (bullet : Line) : Building :=
  ((building.declare bullet).connect bullet).mark bullet

/-- One more line. What is no bullet is passed over. -/
def step (building : Building) (line : Line) : Except StructureError Building :=
  if bullet : line.isBullet = true then
    if deep : building.maxDepth < line.depth then
      .error ⟨line.index, line.depth, building.maxDepth⟩
    else
      .ok ((building.put line line.depth.toNat (toNat_lt_length_parents bullet deep)).note line)
  else .ok building

/-- All further lines, up to one that is indented too far. What was reported comes with the
result. -/
def run (building : Building) : (lines : List Line) → List Event × Except StructureError Graph
  | [] =>
    (building.events ++
      [.outlineBuilt building.links.size building.foldIds.size building.hideIds.size],
      .ok building.toGraph)
  | line :: rest =>
    match building.step line with
    | .error error => (building.events ++ [error.event], .error error)
    | .ok next => next.run rest

end Building

namespace Graph

/-- The graph of an outline, unless some bullet is indented too far. -/
def build (lines : List Line) : Except StructureError Graph := (Building.run {} lines).2

/-- What is reported while a graph is built: ids declared again, up to the first bullet that is
indented too far, then that bullet or the size of the graph. -/
def buildEvents (lines : List Line) : List Event := (Building.run {} lines).1

end Graph

end OutlineDiagram
