/-
This file is the program. It takes up the files that the words of the command line
name, runs the command line on them, and puts what was written onto the disk.
-/

import OutlineDiagram.Command.LogLine
import OutlineDiagram.Command.Run

open OutlineDiagram

/-! ### Taking up -/

/-- The texts that a word may hold a path in: the whole word, the value after an equals sign, and
the rest of a word of letters. -/
def pathTexts (word : String) : List String :=
  word :: (Words.cutValue word.toList).2.toList ++
    if Words.isOption word then [String.ofList (word.toList.drop 2)] else []

/-- The store with what is at a path on the disk. -/
def takeUp (store : Store) (path : Path) : IO Store := do
  match ← (IO.FS.realPath path.toText).toBaseIO with
  | .error _ => return store
  | .ok found =>
    if ← found.isDir then return (store.putFolder path).toOption.getD store
    else
      match ← (IO.FS.readBinFile found).toBaseIO with
      | .ok bytes =>
        return (store.put path { bytes := bytes, stamp := .written 0 }).toOption.getD store
      | .error _ => return store

/-- The store with what is on the disk on the way to a path and at it. -/
def takeUpAlong (store : Store) (path : Path) : IO Store :=
  (List.range (path.parts.length + 1)).foldlM
    (fun store count => takeUp store { path with parts := path.parts.take count }) store

/-- The content of a file in the home folder. -/
def homeContent (home : String) (path : String) : IO (Option ByteArray) := do
  return (← (IO.FS.readBinFile (home ++ "/" ++ path)).toBaseIO).toOption

/-- An id of thirty-two random hexadecimal digits. -/
def randomId : IO String := do
  let digits ← (List.range 32).mapM fun _ => IO.rand 0 15
  return String.ofList (digits.flatMap fun digit => Nat.toDigits 16 digit)

/-! ### Putting back -/

/-- Puts the files that a run wrote onto the disk. A file that changed on the disk since it was
taken up is left alone. -/
def putBack (before after : Store) : IO Bool := do
  let mut isComplete := true
  for (place, file) in after.files.entries do
    let old := (before.files.find? place).map File.bytes
    if old ≠ some file.bytes then
      let path := "/" ++ "/".intercalate place
      let present := (← (IO.FS.readBinFile path).toBaseIO).toOption
      if present = old then
        let temporary := path ++ ".tmp"
        IO.FS.writeBinFile temporary file.bytes
        IO.FS.rename temporary path
      else isComplete := false
  return isComplete

/-- Adds the events of a run to the log in the home folder. -/
def addToLog (home : String) (events : List Event) : IO Unit := do
  let folder := home ++ "/.cache/bulletgraph/logs"
  IO.FS.createDirAll folder
  let log ← IO.FS.Handle.mk (folder ++ "/bulletgraph.log") .append
  for event in events do
    log.putStrLn (LogLine.ofEvent event)

/-! ### The program -/

/-- What is written to the error stream at the end of a run. -/
def endingText (ending : Ending) : Option String :=
  match ending with
  | .done | .refused _ => ending.errorText?
  | .usage error => some ("Error: " ++ error.message)
  | .broken (.file _) => some "Error: A file cannot be read or written."
  | .broken (.settings error) => some ("Error: " ++ error.message)
  | .broken (.edit error) => some ("Error: " ++ error.message)
  | .broken (.markup error) => some ("Error: " ++ error.message)

/-- Runs the command line. -/
def main (words : List String) : IO UInt32 := do
  let home := (← IO.getEnv "HOME").getD ""
  let here := Path.ofText (toString (← IO.FS.realPath "."))
  let store ← (words.flatMap pathTexts).foldlM
    (fun store text => do
      let taken ← takeUpAlong store (Path.ofText text)
      takeUpAlong taken (Request.diagramPath (Path.ofText text)))
    (Store.startingAt here.parts)
  let lines := (store.files.entries.map fun entry =>
    (entry.2.bytes.toList.filter (· == 10)).length).foldr (· + ·) 0
  let ids ← (List.range (2 * lines + 64)).mapM fun _ => randomId
  let environment : Environment :=
    { overrides :=
        { indentSize := ← IO.getEnv "BULLETGRAPH_INDENT_SIZE"
          wrapWidth := ← IO.getEnv "BULLETGRAPH_WRAP_WIDTH"
          splines := ← IO.getEnv "BULLETGRAPH_SPLINES" }
      threshold := .ofVariable (← IO.getEnv "BULLETGRAPH_LOG_LEVEL")
      homeSettings := ← homeContent home ".config/bulletgraph/config.yaml"
      supply := .ofListedHex ids }
  let outcome := runCommand environment store words
  addToLog home outcome.logged
  if ← putBack store outcome.store then
    for line in outcome.printed do
      IO.println line
    match endingText outcome.ending with
    | some message => IO.eprintln message
    | none => pure ()
    return outcome.ending.exitCode.toUInt32
  else
    IO.eprintln "Error: Outline changed on disk\nPlease rerun the command."
    return 1
