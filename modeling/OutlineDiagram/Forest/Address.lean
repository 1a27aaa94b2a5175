/-
This file adds values to a forest at an address. An address counts, level by level,
the trees before the one that is entered; the empty address is that of the top, to
which the first trees belong. Values are only ever added behind others, so what an
address leads to stays where it is.
-/

import OutlineDiagram.Forest.Basic

namespace OutlineDiagram.Forest

variable {α : Type}

/-- The forest with one more tree behind the others, with nothing below its root. -/
def putLast (value : α) : Forest α → Forest α
  | nil => cons value nil nil
  | cons first below after => cons first below (after.putLast value)

/-- What lies below an address. -/
def belowAt : (address : List Nat) → Forest α → Forest α
  | [], forest => forest
  | _ :: _, nil => nil
  | 0 :: address, cons _ below _ => below.belowAt address
  | (place + 1) :: address, cons _ _ after => after.belowAt (place :: address)

/-- The forest with a value added behind what lies below an address. -/
def addAt (value : α) : (address : List Nat) → Forest α → Forest α
  | [], forest => forest.putLast value
  | _ :: _, nil => nil
  | 0 :: address, cons first below after => cons first (below.addAt value address) after
  | (place + 1) :: address, cons first below after =>
    cons first below (after.addAt value (place :: address))

/-- The address that the next value added at an address has. -/
def nextAddress (forest : Forest α) (address : List Nat) : List Nat :=
  address ++ [(forest.belowAt address).trees.length]

end OutlineDiagram.Forest
