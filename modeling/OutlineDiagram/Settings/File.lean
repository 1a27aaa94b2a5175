/-
This file reads settings from files. Without a path the settings come from the home
folder, where no file means that nothing is set; a file that is asked for by its
path has to be there.
-/

import OutlineDiagram.Files.Store
import OutlineDiagram.Settings.Load

namespace OutlineDiagram

namespace Settings

/-- The path of the settings in the home folder. -/
def homePath : String := "~/.config/bulletgraph/config.yaml"

/-- The value in the content of a file. -/
def valueIn (path : String) (bytes : ByteArray) (tools : Tools := .own) :
    Except SettingsError Yaml.Value :=
  match Store.decode bytes with
  | .error _ => .error (.notUtf8 path)
  | .ok text =>
    match tools.read text.toList with
    | .ok value => .ok value
    | .error error => .error (.unreadable path error)

/-- The content of the file at a path, where the error of a missing file is given. -/
def contentAt (store : Store) (path : Path) (missing : SettingsError) :
    Except SettingsError ByteArray :=
  match store.file path with
  | .ok file => .ok file.bytes
  | .error .isFolder => .error (.isDirectory path.toText)
  | .error .tooLong => .error (.tooLong path.toText)
  | .error _ => .error missing

/-- The settings in a file, or else in the home folder, with the overrides of the environment. -/
def load (overrides : Overrides) (store : Store) (home : Option ByteArray) (path : Option Path)
    (tools : Tools := .own) : Except SettingsError Settings :=
  match path, home with
  | some path, _ =>
    match contentAt store path (.missingFile path.toText) with
    | .error error => .error error
    | .ok bytes =>
      match valueIn path.toText bytes tools with
      | .error error => .error error
      | .ok value => ofValue overrides path.toText value tools
  | none, some bytes =>
    match valueIn homePath bytes tools with
    | .error error => .error error
    | .ok value => ofValue overrides homePath value tools
  | none, none => ofValue overrides homePath (.map []) tools

/-- The settings in a file and nowhere else. -/
def loadStrict (store : Store) (path : Path) (tools : Tools := .own) :
    Except SettingsError Settings :=
  match contentAt store path (.missingStrictFile path.toText) with
  | .error error => .error error
  | .ok bytes =>
    match valueIn path.toText bytes tools with
    | .error error => .error error
    | .ok value => ofValueStrict path.toText value tools

end Settings

end OutlineDiagram
