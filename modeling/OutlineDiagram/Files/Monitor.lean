/-
This file tells whether a file changed since it was last looked at. A monitor
remembers for each path the stamp that was seen there; a path that was never looked
at counts as changed.
-/

import OutlineDiagram.Event
import OutlineDiagram.Files.Store

namespace OutlineDiagram

/-- The stamps that were seen. -/
structure Monitor where
  /-- The stamp seen last at each path. -/
  stamps : Table Path Stamp := {}
  deriving DecidableEq, Repr, Inhabited

namespace Monitor

/-- The monitor after a look at what is at a path now. -/
def record (monitor : Monitor) (path : Path) (store : Store) : Except FileError Monitor :=
  match store.stamp path with
  | .ok stamp => .ok { stamps := monitor.stamps.insert path stamp }
  | .error error => .error error

/-- What is at a path now is not what was seen there. -/
def isModified (monitor : Monitor) (path : Path) (store : Store) : Except FileError Bool :=
  match store.stamp path with
  | .ok stamp => .ok (monitor.stamps.find? path != some stamp)
  | .error error => .error error

/-- Writing to a path would undo the change of somebody else, as far as a monitor knows. Where
nothing is, nothing can be undone; and without a monitor nobody cares. -/
def forbids (monitor : Option Monitor) (path : Path) (store : Store) : Except FileError Bool :=
  match monitor with
  | none => .ok false
  | some seen =>
    match seen.isModified path store with
    | .ok isModified => .ok isModified
    | .error .tooLong => .error .tooLong
    | .error _ => .ok false

end Monitor

/-! ### Reading -/

/-- What reading a file gives. -/
structure Reading where
  /-- The text, or why there is none. -/
  outcome : Except FileError String
  /-- The monitor after it, if one was used. -/
  monitor : Option Monitor := none
  /-- What is reported. -/
  events : List Event := []

namespace Store

/-- Reads the text at a path. A monitor remembers the version that was read; when there is no text
it remembers what it did before. -/
def readOutline (store : Store) (path : Path) (monitor : Option Monitor) : Reading :=
  match store.text path with
  | .error error => { outcome := .error error, monitor := monitor }
  | .ok text =>
    { outcome := .ok text
      monitor := monitor.map fun seen => (seen.record path store).toOption.getD seen
      events := [.outlineRead path.toText text.length] }

end Store

end OutlineDiagram
