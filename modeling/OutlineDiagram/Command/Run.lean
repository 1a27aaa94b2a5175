/-
This file carries out command lines. A run reads and replaces files in a store,
prints lines, reports events, and comes to one of a few endings. What was printed,
reported or written before a run fails remains.
-/

import OutlineDiagram.Command.Environment
import OutlineDiagram.Command.Request
import OutlineDiagram.Command.TreeText
import OutlineDiagram.Dot.Render
import OutlineDiagram.Graph.Compile
import OutlineDiagram.Text.Sequence

namespace OutlineDiagram

/-! ### Endings -/

/-- A failure that no message is made for. -/
inductive Breakdown where
  /-- Something is wrong with a file. -/
  | file (error : FileError)
  /-- The settings cannot even be checked. -/
  | settings (error : SettingsError)
  /-- An edit cannot be made for another reason than its line. -/
  | edit (error : EditError)
  /-- A message cannot be shown. -/
  | markup (error : Text.MarkupError)
  deriving DecidableEq, Repr

/-- How a run ends. -/
inductive Ending where
  /-- Everything was done. -/
  | done
  /-- The command line makes no sense. -/
  | usage (error : UsageError)
  /-- Something asked for cannot be done, and a message says why. -/
  | refused (message : String)
  /-- Something failed. -/
  | broken (cause : Breakdown)
  deriving DecidableEq, Repr

namespace Ending

/-- The exit code of an ending. -/
def exitCode : Ending → Nat
  | done => 0
  | usage _ => 2
  | refused _ | broken _ => 1

/-- What is written to the error stream when something was refused. Sequences that would control a
terminal are not written. -/
def errorText? : Ending → Option String
  | refused message =>
    some (String.ofList (Text.withoutSequences ("Error: " ++ message).toList))
  | _ => none

/-- The ending of a command line that cannot be followed. -/
def ofRequestError : RequestError → Ending
  | .usage error => usage error
  | .file error => broken (.file error)

end Ending

/-! ### Actions -/

/-- How far a run has come. -/
structure Progress where
  /-- The files. -/
  store : Store
  /-- The lines that were printed. -/
  printed : List String := []
  /-- The events that were reported. -/
  events : List Event := []

/-- A part of a run, which gives a value or ends the run. -/
abbrev Action (α : Type) := ExceptT Ending (StateM Progress) α

namespace Action

/-- Reports events. -/
def report (events : List Event) : Action Unit :=
  modify fun progress => { progress with events := progress.events ++ events }

/-- Prints lines. -/
def print (lines : List String) : Action Unit :=
  modify fun progress => { progress with printed := progress.printed ++ lines }

/-- Ends the run with a message. -/
def refuse {α : Type} (message : String) : Action α := throw (.refused message)

/-- Ends the run with a failure. -/
def breakOff {α : Type} (cause : Breakdown) : Action α := throw (.broken cause)

/-- Prints what a console shows of lines, if it can show them. -/
def printShown (lines : Except Text.MarkupError (List String)) : Action Unit :=
  match lines with
  | .ok shown => print shown
  | .error error => breakOff (.markup error)

/-- Prints what was done and to which path. The first word is set in green. -/
def printDone (word : String) (path : Path) : Action Unit :=
  printShown (Text.markupLines ("[green]" ++ word ++ "[/green] " ++ path.toText).toList)

/-! ### Settings and outlines -/

/-- Reads the settings. -/
def loadSettings (environment : Environment) (path : Option Path) : Action Settings := do
  let store := (← get).store
  let name := (path.map Path.toText).getD "default"
  match Settings.load environment.overrides store environment.homeSettings path
    environment.tools with
  | .ok settings =>
    report [.configLoaded name]
    return settings
  | .error error =>
    match error with
    | .missingFile _ =>
      report [.configNotFound name]
      refuse error.message
    | _ =>
      if error.isContentError then
        report [.configInvalid error.message]
        refuse ("Configuration validation failed:\n" ++ error.message)
      else breakOff (.settings error)

/-- Reads the document in a file, and the monitor that saw it, if one is to be used. -/
def openDocument (environment : Environment) (settings : Settings) (path : Path)
    (monitor : Option Monitor) : Action (Document × Option Monitor) := do
  let reading := (← get).store.readOutline path monitor
  report reading.events
  match reading.outcome with
  | .ok text =>
    return (.ofText settings.parser.indentSize environment.supply text, reading.monitor)
  | .error error => breakOff (.file error)

/-- Compiles a document. -/
def compile (document : Document) (prune : Bool) : Action Graph := do
  report (Graph.compileEvents prune document.lines)
  match Graph.compile prune document.lines with
  | .ok graph => return graph
  | .error error =>
    report [.structureRejected (error.lineIndex + 1) error.message]
    refuse error.message

/-- Replaces a file. -/
def replace (environment : Environment) (path : Path) (text : String)
    (monitor : Option Monitor) : Action Unit := do
  let progress ← get
  let done := progress.store.replace environment.process path text monitor environment.meanwhile
  set { progress with store := done.store, events := progress.events ++ done.events }
  match done.error with
  | none => return
  | some (.modified path time) =>
    let message := modifiedMessage path time
    report [.concurrentModification path.toText message]
    refuse (message ++ "\nPlease rerun the command.")
  | some (.file error) => breakOff (.file error)

/-- Writes an edited document back. -/
def save (environment : Environment) (path : Path) (document : Document)
    (monitor : Option Monitor) : Action Unit := do
  if document.isEdited then
    replace environment path document.render monitor
    report [.outlineWritten path.toText]
    printDone "Updated" path
  else print ["No changes"]

/-- Reads a document, edits it, pushes visibility down and writes it back. -/
def edit (environment : Environment) (settings : Settings) (path : Path) (edit : Edit) :
    Action Unit := do
  let (document, monitor) ← openDocument environment settings path (some {})
  match edit.apply document with
  | .ok (edited, events) =>
    report events
    save environment path edited.propagateVisibility monitor
  | .error (.noBullet number) =>
    let message := (EditError.noBullet number).message
    report [.editFailed path.toText message]
    refuse message
  | .error error => breakOff (.edit error)

/-! ### Requests -/

/-- Carries out a request. -/
def carryOut (environment : Environment) (settings : Settings) (request : Request) :
    Action Unit := do
  match request with
  | .render path output prune =>
    report [.renderStarted path.toText prune]
    let (document, _) ← openDocument environment settings path none
    let graph ← compile document prune
    report [Dot.renderEvent graph]
    replace environment output (Dot.render settings.render graph) none
    report [.dotWritten output.toText]
    printDone "Wrote" output
  | .tree path prune =>
    let (document, _) ← openDocument environment settings path none
    let graph ← compile document prune
    printShown (TreeText.lines (path.name?.getD "") graph)
  | .line name lineEdit path number =>
    report [.editStarted name path.toText (some number)]
    edit environment settings path (.line lineEdit number)
  | .whole name wholeEdit path =>
    report [.editStarted name path.toText none]
    edit environment settings path (.whole wholeEdit)
  | .link path source target =>
    report [.linkStarted path.toText source target]
    edit environment settings path (.link source target)
  | .cleanupIds path =>
    report [.cleanupStarted path.toText]
    let (document, monitor) ← openDocument environment settings path (some {})
    report [document.cleanupEvent]
    print ["Cleaned " ++ toString document.cleanupCount ++ " bullet(s)"]
    save environment path document.cleanupIds monitor

/-- What the version option prints. -/
def versionLine : String := "bulletgraph, version 0.1.0"

/-- Carries out a command line. The settings are read before the words after the command. -/
def followWords (environment : Environment) (words : List String) : Action Unit := do
  match Start.read (← get).store words with
  | .error error => throw (.ofRequestError error)
  | .ok .version => print [versionLine]
  | .ok (.command command path rest) =>
    let settings ← loadSettings environment path
    match Request.read (← get).store command rest with
    | .error error => throw (.ofRequestError error)
    | .ok request => carryOut environment settings request

end Action

/-! ### Runs -/

/-- What a run leaves behind. -/
structure Outcome where
  /-- How it ended. -/
  ending : Ending
  /-- The lines that it printed. -/
  printed : List String
  /-- The events that it logged. -/
  logged : List Event
  /-- The files. -/
  store : Store

/-- Runs a command line on some files. -/
def runCommand (environment : Environment) (store : Store) (words : List String) : Outcome :=
  let (result, progress) :=
    StateT.run (ExceptT.run (Action.followWords environment words)) { store := store }
  { ending := match result with
      | .ok _ => .done
      | .error ending => ending
    printed := progress.printed
    logged := progress.events.filter fun event => event.reaches environment.threshold
    store := progress.store }

end OutlineDiagram
