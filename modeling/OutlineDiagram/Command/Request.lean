/-
This file reads what a command line asks for. The options before the name of the
command say where the settings are; the words after it are the files and lines that
the command works on. Whether these exist is part of the reading, so that a request
that was read can be carried out.
-/

import OutlineDiagram.Command.Words
import OutlineDiagram.Document.Edit
import OutlineDiagram.Files.Store
import OutlineDiagram.Text.Digit

namespace OutlineDiagram

/-! ### Commands -/

/-- A command. -/
inductive Command where
  /-- Writes the diagram of an outline. -/
  | render
  /-- Prints the bullets of an outline as a tree. -/
  | tree
  /-- Edits one bullet. -/
  | line (name : String) (edit : LineEdit)
  /-- Edits all of an outline. -/
  | whole (name : String) (edit : WholeEdit)
  /-- Links two bullets. -/
  | link
  /-- Drops unused ids and links to nothing. -/
  | cleanupIds
  deriving DecidableEq, Repr

namespace Command

/-- The commands by their names. -/
def named : List (String × Command) :=
  let line (name : String) (edit : LineEdit) : String × Command := (name, .line name edit)
  let whole (name : String) (edit : WholeEdit) : String × Command := (name, .whole name edit)
  [("render", render), ("tree", tree), ("link", link), ("cleanup-ids", cleanupIds),
    line "fold" .fold, line "unfold" .unfold, line "hide" .hide, line "unhide" .unhide,
    line "highlight" (.highlight false), line "reveal" (.reveal false),
    line "connect" (.connect false), line "fold-children" .foldChildren,
    line "unfold-children" .unfoldChildren, line "hide-children" .hideChildren,
    line "unhide-children" .unhideChildren, whole "fold-all" .foldAll,
    whole "unfold-all" .unfoldAll, whole "hide-all" .hideAll, whole "unhide-all" .unhideAll]

/-- The command of a name. -/
def ofName? (name : String) : Option Command := named.lookup name

/-- The options of a command. -/
def options : Command → List OptionName
  | render => [{ long := "--output", short := some 'o', takesValue := true },
      { long := "--no-prune" }]
  | tree => [{ long := "--no-prune" }]
  | _ => []

end Command

/-! ### Errors -/

/-- The reason why a command line cannot be followed. -/
inductive RequestError where
  /-- It makes no sense. -/
  | usage (error : UsageError)
  /-- A word cannot even be looked up as a path. -/
  | file (error : FileError)
  deriving DecidableEq, Repr

namespace RequestError

/-- The words sorted, where they make sense. -/
def sorted (names : List OptionName) (mixed : Bool) (words : List String) :
    Except RequestError Words :=
  (Words.sort names mixed words).mapError usage

end RequestError

/-! ### The words before the command -/

/-- What the words up to the name of a command ask for. -/
inductive Start where
  /-- The version of the program. -/
  | version
  /-- A command, with settings perhaps from a file, and the words after its name. -/
  | command (command : Command) (settings : Option Path) (rest : List String)
  deriving DecidableEq, Repr

namespace Start

/-- The options before the name of a command. -/
def options : List OptionName :=
  [{ long := "--config", takesValue := true }, { long := "--version" }]

/-- The path that a word writes, and whether there is a folder at it. A word that is too long as it
stands is not looked up. -/
def lookUp (store : Store) (text : String) : Except RequestError (Path × Bool) :=
  let path := Path.ofText text
  if text.toList.contains '\x00' then .error (.file .badCharacter)
  else
    .ok (path, text ≠ "" && text.utf8ByteSize ≤ Store.pathLimit && store.isFolder path)

/-- The path that the value of an option writes, where a file may be or come to be. -/
def freePath (store : Store) (text : String) : Except RequestError Path := do
  let (path, isFolder) ← lookUp store text
  if isFolder then .error (.usage (.folder text)) else .ok path

/-- What the options among some words ask for: the version, or else settings perhaps from a file;
and the words after the options. -/
def readOptions (store : Store) (words : List String) :
    Except RequestError (Option (Option Path × List String)) := do
  let sorted ← RequestError.sorted options false words
  if sorted.has "--version" then .ok none
  else
    let settings ← (sorted.value? "--config").mapM (freePath store)
    .ok (some (settings, sorted.arguments))

/-- Reads the words of a command line up to the name of the command. Where the name is none of a
command, the words from it on may still be options, which then are followed before the name is
refused. -/
def read (store : Store) (words : List String) : Except RequestError Start := do
  match ← readOptions store words with
  | none => .ok .version
  | some (_, []) => .error (.usage .missingCommand)
  | some (settings, name :: rest) =>
    match Command.ofName? name with
    | some known => .ok (.command known settings rest)
    | none =>
      match ← readOptions store (name :: rest) with
      | none => .ok .version
      | some _ => .error (.usage (.unknownCommand name))

end Start

/-! ### The words after the command -/

/-- What a command is to do. -/
inductive Request where
  /-- Writes the diagram of an outline to a file, pruned or not. -/
  | render (file : Path) (output : Path) (prune : Bool)
  /-- Prints the bullets of an outline as a tree, pruned or not. -/
  | tree (file : Path) (prune : Bool)
  /-- Edits the bullet at a line. -/
  | line (name : String) (edit : LineEdit) (file : Path) (number : Int)
  /-- Edits all of an outline. -/
  | whole (name : String) (edit : WholeEdit) (file : Path)
  /-- Links the bullets at two lines. -/
  | link (file : Path) (source target : Int)
  /-- Drops unused ids and links to nothing. -/
  | cleanupIds (file : Path)
  deriving DecidableEq, Repr

namespace Request

/-- The path that a word writes, where a file has to be. -/
def outlinePath (store : Store) (text : String) : Except RequestError Path := do
  let (path, isFolder) ← Start.lookUp store text
  if isFolder then .error (.usage (.folder text))
  else if text.utf8ByteSize ≤ Store.pathLimit && store.contains path &&
      !Path.endsAtFolder text then .ok path
  else .error (.usage (.noFile text))

/-- The number of a line that a word writes, counted from one. -/
def lineNumber (text : String) : Except RequestError Int :=
  match Text.readInteger text.toList with
  | some number => if 1 ≤ number then .ok number else .error (.usage (.noLineNumber text))
  | none => .error (.usage (.noLineNumber text))

/-- The path of the diagram of an outline, unless another is given. -/
def diagramPath (file : Path) : Path := (file.withName fun name => name ++ ".dot").getD file

/-- An argument, read from the first of the words that are left, and the others. -/
def argument {α : Type} (read : String → Except RequestError α) :
    List String → Except RequestError (α × List String)
  | [] => .error (.usage .missingArgument)
  | word :: rest => (read word).map fun value => (value, rest)

/-- The request of some arguments, if no words are left. -/
def complete (request : Request) : List String → Except RequestError Request
  | [] => .ok request
  | _ => .error (.usage .surplusArgument)

/-- Reads the words after the name of a command. The values of options are read before the
arguments, and those in their order. -/
def read (store : Store) (command : Command) (words : List String) :
    Except RequestError Request := do
  let sorted ← RequestError.sorted command.options true words
  let prune := !sorted.has "--no-prune"
  let output ← (sorted.value? "--output").mapM (Start.freePath store)
  let (file, rest) ← argument (outlinePath store) sorted.arguments
  match command with
  | .render => complete (.render file (output.getD (diagramPath file)) prune) rest
  | .tree => complete (.tree file prune) rest
  | .line name edit =>
    let (number, rest) ← argument lineNumber rest
    complete (.line name edit file number) rest
  | .whole name edit => complete (.whole name edit file) rest
  | .link =>
    let (source, rest) ← argument lineNumber rest
    let (target, rest) ← argument lineNumber rest
    complete (.link file source target) rest
  | .cleanupIds => complete (.cleanupIds file) rest

end Request

end OutlineDiagram
