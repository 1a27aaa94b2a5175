/-
This file edits ids and links. A bullet gets an id of its own when it is first
linked to; ids that nothing names and links that name nothing can be dropped.
-/

import OutlineDiagram.Document.Mark
import OutlineDiagram.Event
import OutlineDiagram.Ids.IdSet

namespace OutlineDiagram

open Text

namespace Document

/-! ### Giving ids -/

/-- The ids that bullets declare or name, each once. -/
def usedIds (document : Document) : List String :=
  (IdSet.ofList (document.bullets.flatMap fun bullet =>
    bullet.ownId?.toList ++ bullet.linkIds)).toList

/-- The id of a bullet and the document in which it is written. A bullet that has one keeps it;
otherwise the first id of the supply that is not in use is taken. -/
def materializeId (line : Line) (document : Document) :
    Except EditError (String × Document × List Event) :=
  match line.ownId? with
  | some id => .ok (id, document, [])
  | none =>
    let used := document.usedIds
    match document.supply.drawFresh used (used.length + document.supply.patience) with
    | none => .error .idsUsedUp
    | some (id, supply) =>
      let named := document.changeLine line.index fun now => { now with explicitId := some id }
      .ok (id, { named with supply := supply }, [.idMaterialized line.number id])

/-- The document in which the first of two bullets links to the second. Both have an id then, and
a link that is there already is not written again. -/
def link (source target : Line) (document : Document) :
    Except EditError (Document × List Event) := do
  let (id, withTarget, targetEvents) ← document.materializeId target
  let sourceNow := (withTarget.lineAt? source.index).getD source
  let (_, withSource, sourceEvents) ← withTarget.materializeId sourceNow
  let events := targetEvents ++ sourceEvents
  if sourceNow.idsOut.contains id then .ok (withSource, events)
  else
    .ok (withSource.changeLine source.index fun now => { now with idsOut := now.idsOut ++ [id] },
      events ++ [.linkAdded source.number target.number id])

/-! ### Dropping ids -/

/-- The character stands between the words of a script. -/
def cutsScript (character : Char) : Bool := character == ' ' || character == ','

/-- The words of a script line after its first character, cut at spaces and commas. -/
def scriptWords (text : String) : List String :=
  (wordsBy cutsScript (trim (text.toList.drop 1))).map String.ofList

/-- The ids that bullets declare. -/
def declaredIds (document : Document) : List String :=
  document.bullets.filterMap fun bullet => bullet.ownId?

/-- The ids that links and scripts name. -/
def namedIds (document : Document) : List String :=
  (document.bullets.flatMap fun bullet => bullet.linkIds) ++
    document.scripts.flatMap fun script => scriptWords script.2

end Document

namespace Line

/-- The line without an id that nothing names and without links that name no bullet. -/
def cleaned (declared named : List String) (line : Line) : Line :=
  { line with
    explicitId := line.explicitId.filter fun id => id == "" || named.contains id
    idsIn := line.idsIn.filter declared.contains
    idsOut := line.idsOut.filter declared.contains }

end Line

namespace Document

/-- The entry after a cleanup. -/
def cleanEntry (declared named : List String) : Entry → Entry
  | .parsed line isEdited =>
    if line.isBullet && line.cleaned declared named != line then
      .parsed (line.cleaned declared named) true
    else .parsed line isEdited
  | entry => entry

/-- The number of bullets that a cleanup changes. -/
def cleanupCount (document : Document) : Nat :=
  let declared := document.declaredIds
  let named := document.namedIds
  (document.bullets.filter fun bullet => bullet.cleaned declared named != bullet).length

/-- The document without ids that nothing names and without links that name no bullet. -/
def cleanupIds (document : Document) : Document :=
  { document with
    entries := document.entries.map (cleanEntry document.declaredIds document.namedIds) }

/-- What is reported of a cleanup. -/
def cleanupEvent (document : Document) : Event := .idsCleaned document.cleanupCount

end Document

end OutlineDiagram
