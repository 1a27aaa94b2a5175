/-
This file replaces a file as a whole. The text is written beside the file, put
onto the disk and then moved over it, so that others see the old text or the new
one and nothing in between. With a monitor the file is left alone when somebody
else changed it: that is checked before anything is written, and again right
before the move, since others go on working meanwhile. What they do meanwhile is
given, so that a statement about every replacement is about everything that others
may do.
-/

import OutlineDiagram.Files.Monitor

namespace OutlineDiagram

/-! ### What others do -/

/-- Something that others do to the files. -/
inductive Change where
  /-- A file is written, with the folders around it. -/
  | put (path : Path) (file : File)
  /-- A file or folder gets another stamp. -/
  | touch (path : Path) (stamp : Stamp)
  /-- A file is deleted. -/
  | delete (path : Path)
  /-- A file or folder is locked. -/
  | lock (held : Lock)
  /-- A file or folder is not locked any more. -/
  | unlock (held : Lock)
  /-- The disk gives up. -/
  | fail
  deriving DecidableEq, Inhabited

namespace Change

/-- The store after a change, or why it cannot be made. -/
def apply (change : Change) (store : Store) : Except FileError Store :=
  match change with
  | put path file => store.put path file
  | touch path stamp => store.touch path stamp
  | delete path => store.delete path
  | lock held => .ok { store with locks := held :: store.locks }
  | unlock held => .ok { store with locks := store.locks.filter (· != held) }
  | fail => .error .notSynced

/-- The store after changes up to the first that cannot be made, and why that one cannot. -/
def applyAll : List Change → Store → Store × Option FileError
  | [], store => (store, none)
  | change :: rest, store =>
    match change.apply store with
    | .ok changed => applyAll rest changed
    | .error error => (store, some error)

end Change

/-! ### Errors -/

/-- When a file was found changed. -/
inductive CheckTime where
  /-- Before anything was written. -/
  | early
  /-- Right before the move. -/
  | late
  deriving DecidableEq, Repr, Inhabited

/-- The reason why a file was not replaced. -/
inductive ReplaceError where
  /-- Somebody else changed the file. -/
  | modified (path : Path) (time : CheckTime)
  /-- Something is wrong with the path or the disk. -/
  | file (error : FileError)
  deriving DecidableEq, Repr, Inhabited

/-- What is reported of a change that was found. -/
def modifiedMessage (path : Path) (time : CheckTime) : String :=
  let name := match time with
    | .early => "early"
    | .late => "late"
  "Outline changed on disk (" ++ name ++ " check): " ++ path.toText

/-! ### Replacing -/

/-- What replacing a file gives. -/
structure Replacement where
  /-- Why the file was not replaced, if it was not. -/
  error : Option ReplaceError := none
  /-- The files after it. -/
  store : Store
  /-- The monitor after it, if one was used. -/
  monitor : Option Monitor
  /-- What is reported. -/
  events : List Event := []

namespace Store

/-- The store without the temporary file. That it is missing is no fault. -/
def discard (store : Store) (temporary : Path) : Except FileError Store :=
  match store.remove temporary with
  | .ok cleared => .ok cleared
  | .error .missing => .ok store
  | .error error => .error error

/-- What is reported of the reason why a file was not replaced. -/
def failureEvents (path : Path) : ReplaceError → List Event
  | .modified _ _ => []
  | .file _ => [.fileWriteFailed path.toText]

/-- Gives up for a reason, without the temporary file. If that cannot be cleared away, this is the
reason, and nothing is reported. -/
def giveUp (store : Store) (temporary path : Path) (monitor : Option Monitor)
    (reason : ReplaceError) : Replacement :=
  match store.discard temporary with
  | .ok cleared =>
    { error := some reason
      store := cleared
      monitor := monitor
      events := failureEvents path reason }
  | .error error => { error := some (.file error), store := store, monitor := monitor }

/-- Begins to replace the file at a path by a text: the temporary file of a process and the store
in which it holds the text, or the end when the file is left alone. -/
def stage (store : Store) (process : Nat) (path : Path) (text : String)
    (monitor : Option Monitor) : Except Replacement (Path × Store) :=
  let refused (error : ReplaceError) : Replacement :=
    { error := some error, store := store, monitor := monitor }
  match Monitor.forbids monitor path store, path.temporary process with
  | .error error, _ => .error (refused (.file error))
  | .ok true, _ => .error (refused (.modified path .early))
  | .ok false, none => .error (refused (.file .nameless))
  | .ok false, some temporary =>
    match store.save temporary text.toUTF8 with
    | .error error => .error (store.giveUp temporary path monitor (.file error))
    | .ok saved => .ok (temporary, saved)

/-- Ends a replacement: the temporary file is moved over the file if that may still be replaced. -/
def commit (store : Store) (temporary path : Path) (text : String) (monitor : Option Monitor) :
    Replacement :=
  match Monitor.forbids monitor path store with
  | .error error => store.giveUp temporary path monitor (.file error)
  | .ok true => store.giveUp temporary path monitor (.modified path .late)
  | .ok false =>
    match store.move temporary path with
    | .error error => store.giveUp temporary path monitor (.file error)
    | .ok done =>
      { store := done
        monitor := monitor.map fun seen => (seen.record path done).toOption.getD seen
        events := [.fileWritten path.toText text.length] }

/-- Replaces the file at a path by a text, through the temporary file of a process, while others
make some changes. -/
def replace (store : Store) (process : Nat) (path : Path) (text : String)
    (monitor : Option Monitor) (meanwhile : List Change) : Replacement :=
  match store.stage process path text monitor with
  | .error outcome => outcome
  | .ok (temporary, saved) =>
    match Change.applyAll meanwhile saved with
    | (synced, some error) => synced.giveUp temporary path monitor (.file error)
    | (synced, none) => synced.commit temporary path text monitor

end Store

end OutlineDiagram
