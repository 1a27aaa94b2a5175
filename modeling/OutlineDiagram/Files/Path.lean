/-
This file holds paths of files. A path is written with slashes; empty parts and
parts that are a single dot mean nothing and are dropped when it is read, so that
two spellings of a path that differ only in them are the same path. A path that
starts with exactly two slashes is told apart from one that starts with one.
-/

namespace OutlineDiagram

/-- A path of a file or folder. -/
structure Path where
  /-- The number of slashes in front, none or one or two. Without any the path starts at the
  folder that work is done in, and else at the top of all folders. -/
  slashes : Nat := 0
  /-- The names on the way. A name of two dots leads one folder up. -/
  parts : List String := []
  deriving DecidableEq, Repr, Inhabited

namespace Path

/-- The pieces of a text between slashes. -/
def pieces : List Char → List (List Char)
  | [] => [[]]
  | '/' :: rest => [] :: pieces rest
  | character :: rest =>
    match pieces rest with
    | [] => [[character]]
    | piece :: others => (character :: piece) :: others

/-- The piece is a name and not just an empty step. -/
def isName (piece : List Char) : Bool := piece ≠ [] && piece ≠ ['.']

/-- The number of slashes that count in front of a path. More than two count as one. -/
def countedSlashes (text : List Char) : Nat :=
  let count := (text.takeWhile (· == '/')).length
  if 2 < count then 1 else count

/-- The path that a text writes. -/
def ofText (text : String) : Path where
  slashes := countedSlashes text.toList
  parts := ((pieces text.toList).filter isName).map String.ofList

/-- The text of a path. The path without any part is written as a dot. -/
def toText (path : Path) : String :=
  match path.slashes, path.parts with
  | 0, [] => "."
  | slashes, parts => String.ofList (List.replicate slashes '/') ++ "/".intercalate parts

/-- The last name of a path. -/
def name? (path : Path) : Option String := path.parts.getLast?

/-- The path of a file with another name in the same folder, if the path has a name to change. -/
def withName (path : Path) (change : String → String) : Option Path :=
  path.name?.map fun name => { path with parts := path.parts.dropLast ++ [change name] }

/-- The path of the file that a process writes first when it replaces a file. -/
def temporary (process : Nat) (path : Path) : Option Path :=
  path.withName fun name => "." ++ name ++ ".tmp." ++ toString process

/-- The text writes a path that can only be that of a folder, since it ends without a name. -/
def endsAtFolder (text : String) : Bool :=
  match (pieces text.toList).getLast? with
  | some piece => !isName piece
  | none => true

end Path

end OutlineDiagram
