/-
This file holds the files that work is done with: their content, and a stamp that
tells versions of a file apart. A file that is written gets a stamp that no file
had before; others may set any stamp. Folders are stamped too, anew whenever an
entry is added or taken out. Others may lock files and folders, which then cannot
be changed in some ways; what they do themselves is not held up by locks.
-/

import OutlineDiagram.Files.Clock
import OutlineDiagram.Files.Path
import OutlineDiagram.Table
import OutlineDiagram.Text.LineBreak

namespace OutlineDiagram

/-! ### Files and folders -/

/-- What tells versions of a file apart. -/
inductive Stamp where
  /-- A time that somebody set, as it is given back. -/
  | given (isNegative : Bool) (size : Double)
  /-- The time of a write, counted in writes. -/
  | written (count : Nat)
  deriving DecidableEq, Repr, Inhabited

/-- The stamp of a time that somebody set. -/
def Stamp.ofTime (time : ClockTime) : Stamp := .given time.givenBack.1 time.givenBack.2

/-- Contents are compared byte by byte. -/
instance decidableEqContent : DecidableEq ByteArray := ByteArray.instDecidableEq

/-- A version of a file. -/
structure File where
  /-- The content. -/
  bytes : ByteArray
  /-- The stamp of this version. -/
  stamp : Stamp
  deriving DecidableEq, Inhabited

/-- Where a file or folder is: the names of the folders down to it from the top one, and its own. -/
abbrev Place := List String

/-- The reason why nothing can be done with a path. -/
inductive FileError where
  /-- There is nothing at the path. -/
  | missing
  /-- There is a folder where a file is wanted. -/
  | isFolder
  /-- A file is used like a folder on the way. -/
  | notFolder
  /-- There is a file where a folder is to be made. -/
  | occupied
  /-- What is to be changed is held: it or its folder is locked, or it is a way up to a folder. -/
  | busy
  /-- The path has no name that could be changed. -/
  | nameless
  /-- A name on the way or the whole path is too long. -/
  | tooLong
  /-- The path holds the character that ends paths. -/
  | badCharacter
  /-- The content is not written in UTF-8. -/
  | notUtf8
  /-- The content could not be put onto the disk. -/
  | notSynced
  deriving DecidableEq, Repr, Inhabited

/-- What holds up changes. -/
inductive Lock where
  /-- No file can be added to the folder, taken out of it or replaced in it. -/
  | folder (place : Place)
  /-- The file can be neither taken out of its folder nor replaced there. -/
  | file (place : Place)
  deriving DecidableEq, Repr, Inhabited

/-- All files and folders that work is done with. -/
structure Store where
  /-- The files. -/
  files : Table Place File := {}
  /-- The folders with their stamps, among them the top one. -/
  folders : Table Place Stamp := { entries := [([], .written 0)] }
  /-- The folder that work is done in, where relative paths start. -/
  here : Place := []
  /-- The number of writes so far. -/
  writes : Nat := 0
  /-- What is locked. -/
  locks : List Lock := []

namespace Store

/-! ### Places of paths -/

/-- The largest number of bytes in a name. -/
def nameLimit : Nat := 255

/-- The largest number of bytes in a path. -/
def pathLimit : Nat := 4095

/-- What is wrong with the text of a path, whatever files there are. -/
def pathError? (path : Path) : Option FileError :=
  if path.toText.toList.contains '\x00' then some .badCharacter
  else if pathLimit < path.toText.utf8ByteSize then some .tooLong
  else none

/-- The place one step on from a folder. -/
def step (folder : Place) (name : String) : Place :=
  if name = ".." then folder.dropLast else folder ++ [name]

/-- The place that names lead to from a folder. Each step but the last must lead to a folder, and
a name is looked at only in a folder. -/
def follow (store : Store) : Place → List String → Except FileError Place
  | folder, [] => .ok folder
  | folder, name :: rest =>
    if !store.folders.contains folder then
      .error (if store.files.contains folder then .notFolder else .missing)
    else if nameLimit < name.utf8ByteSize then .error .tooLong
    else store.follow (step folder name) rest

/-- The folder that a path starts at. -/
def start (store : Store) (path : Path) : Place := if path.slashes = 0 then store.here else []

/-- The place of a path. -/
def place (store : Store) (path : Path) : Except FileError Place :=
  match pathError? path with
  | some error => .error error
  | none => store.follow (store.start path) path.parts

/-- The place of the file that a path leads to. -/
def filePlace (store : Store) (path : Path) : Except FileError Place :=
  match store.place path with
  | .error error => .error error
  | .ok place =>
    if store.files.contains place then .ok place
    else .error (if store.folders.contains place then .isFolder else .missing)

/-! ### Looking -/

/-- The file at a path. -/
def file (store : Store) (path : Path) : Except FileError File :=
  match store.filePlace path with
  | .error error => .error error
  | .ok place =>
    match store.files.find? place with
    | some file => .ok file
    | none => .error .missing

/-- The stamp of the file or folder at a path. -/
def stamp (store : Store) (path : Path) : Except FileError Stamp :=
  match store.place path with
  | .error error => .error error
  | .ok place =>
    match (store.files.find? place).map File.stamp <|> store.folders.find? place with
    | some stamp => .ok stamp
    | none => .error .missing

/-- There is a file or folder at the path. -/
def contains (store : Store) (path : Path) : Bool := (store.stamp path).isOk

/-- The path leads to a folder. -/
def isFolder (store : Store) (path : Path) : Bool :=
  match store.place path with
  | .ok place => store.folders.contains place
  | .error _ => false

/-- The text in some content, with every kind of line break as a newline. -/
def decode (bytes : ByteArray) : Except FileError String :=
  match String.fromUTF8? bytes with
  | some text => .ok (String.ofList (Text.unifyNewlines text.toList))
  | none => .error .notUtf8

/-- The text of the file at a path. -/
def text (store : Store) (path : Path) : Except FileError String :=
  match store.file path with
  | .ok file => decode file.bytes
  | .error error => .error error

/-! ### Changing -/

/-- The store with a new stamp for the folder around a place. -/
def restamp (store : Store) (place : Place) : Store :=
  { store with
    folders := store.folders.insert place.dropLast (.written (store.writes + 1))
    writes := store.writes + 1 }

/-- The store with a file at a place, whose folder is known to be there. -/
def putAt (store : Store) (place : Place) (file : File) : Store :=
  let changed := { store with files := store.files.insert place file }
  if store.files.contains place then changed else changed.restamp place

/-- The store without the file at a place. -/
def dropAt (store : Store) (place : Place) : Store :=
  { store with files := store.files.erase place }.restamp place

/-- The place at which a file can be written under a path. -/
def target (store : Store) (path : Path) : Except FileError Place :=
  match store.place path with
  | .error error => .error error
  | .ok place => if store.folders.contains place then .error .isFolder else .ok place

/-- The folder around a place is locked. -/
def isLockedAround (store : Store) (place : Place) : Bool :=
  store.locks.contains (.folder place.dropLast)

/-- A file at the place cannot be taken away, and no file can be moved there. -/
def isLocked (store : Store) (place : Place) : Bool :=
  store.isLockedAround place || (store.files.contains place && store.locks.contains (.file place))

/-- The store with bytes written to a path, under a stamp of their own. -/
def save (store : Store) (path : Path) (bytes : ByteArray) : Except FileError Store :=
  match store.target path with
  | .error error => .error error
  | .ok place =>
    if !store.files.contains place && store.isLockedAround place then .error .busy
    else
      .ok ({ store with writes := store.writes + 1 }.putAt place
        { bytes := bytes, stamp := .written (store.writes + 1) })

/-- The store with another stamp for the file or folder at a path. -/
def touch (store : Store) (path : Path) (stamp : Stamp) : Except FileError Store :=
  match store.place path with
  | .error error => .error error
  | .ok place =>
    match store.files.find? place with
    | some file =>
      .ok { store with files := store.files.insert place { file with stamp := stamp } }
    | none =>
      if store.folders.contains place then
        .ok { store with folders := store.folders.insert place stamp }
      else .error .missing

/-- The store without the file at a path, whatever is locked. -/
def delete (store : Store) (path : Path) : Except FileError Store :=
  match store.filePlace path with
  | .error error => .error error
  | .ok place => .ok (store.dropAt place)

/-- The store without the file at a path, unless it is locked. -/
def remove (store : Store) (path : Path) : Except FileError Store :=
  match store.filePlace path with
  | .error error => .error error
  | .ok place => if store.isLocked place then .error .busy else .ok (store.dropAt place)

/-- The place to which a file can be moved under a path. -/
def moveTarget (store : Store) (path : Path) : Except FileError Place :=
  match store.target path with
  | .error error => .error (if path.name? = some ".." then .busy else error)
  | .ok place => .ok place

/-- The store in which a file took the place of another, or moved to where none was. -/
def move (store : Store) (source destination : Path) : Except FileError Store :=
  match store.filePlace source with
  | .error error => .error error
  | .ok sourcePlace =>
    match store.files.find? sourcePlace, store.moveTarget destination with
    | none, _ => .error .missing
    | _, .error error => .error error
    | some file, .ok place =>
      if store.isLocked sourcePlace || store.isLocked place then .error .busy
      else .ok ((store.dropAt sourcePlace).putAt place file)

/-- The store with all folders on the way along some names, starting at a folder. A file on the
way is in the way: at the end it takes the place of the folder to be made, before that it is used
like one. -/
def addFolders (store : Store) : Place → List String → Except FileError Store
  | _, [] => .ok store
  | folder, name :: rest =>
    let next := step folder name
    if nameLimit < name.utf8ByteSize then .error .tooLong
    else if store.folders.contains next then store.addFolders next rest
    else if store.files.contains next then
      .error (if rest.isEmpty then .occupied else .notFolder)
    else
      let added := store.restamp next
      { added with
        folders := added.folders.insert next (.written (added.writes + 1))
        writes := added.writes + 1 }.addFolders next rest

/-- The store with a folder at a path, and with the folders that were missing on the way. -/
def putFolder (store : Store) (path : Path) : Except FileError Store :=
  match pathError? path with
  | some error => .error error
  | none => store.addFolders (store.start path) path.parts

/-- The store with a file at a path, and with the folders that were missing on the way. -/
def put (store : Store) (path : Path) (file : File) : Except FileError Store :=
  match store.putFolder { path with parts := path.parts.dropLast } with
  | .error error => .error error
  | .ok grown =>
    match grown.target path with
    | .error error => .error error
    | .ok place => .ok (grown.putAt place file)

/-- The store without files in which work is done in a folder. -/
def startingAt (here : Place) : Store :=
  match ({ here := here } : Store).addFolders [] here with
  | .ok store => store
  | .error _ => { here := here }

end Store

end OutlineDiagram
