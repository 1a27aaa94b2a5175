/-
This file reads the value that a YAML text holds. The text may hold printable
characters only, and no list or mapping may be a key; anchors, tags, directives and
texts in blocks are not read. What is in a collection is read only when everything
around it was read, so that of several faults the one nearest to the outside is met.
-/

import OutlineDiagram.Yaml.Node

namespace OutlineDiagram.Yaml

/-- The character may stand in a YAML text. -/
def isAllowed (character : Char) : Bool :=
  let point := character.toNat
  [0x09, 0x0A, 0x0D, 0x85].contains point || (0x20 ≤ point && point ≤ 0x7E) ||
    (0xA0 ≤ point && point ≤ 0xD7FF) || (0xE000 ≤ point && point ≤ 0xFFFD) || 0x10000 ≤ point

/-! ### Rounds -/

/-- What reading a part gives. A fault comes with the round in which it is met: what is in a
collection is read in the round after the one in which the collection itself is met. -/
abbrev Attempt (α : Type) := Except (Nat × ReadError) α

/-- Two parts together. Of two faults the one of an earlier round is met, and in the same round
the one in the first part. -/
def bothParts {α β : Type} (first : Attempt α) (second : Attempt β) : Attempt (α × β) :=
  match first, second with
  | .ok left, .ok right => .ok (left, right)
  | .error fault, .ok _ => .error fault
  | .ok _, .error fault => .error fault
  | .error fault, .error other => .error (if other.1 < fault.1 then other else fault)

/-- The value where a key is wanted: no list and no mapping. Their content is not looked at. -/
def asKey (round : Nat) (node : Node) (value : Attempt Value) : Attempt Value :=
  match node with
  | .scalar ['='] true => .ok (.string "=")
  | .scalar .. => value
  | _ => .error (round, .malformed)

mutual

/-- The value of a node that is met in a round. -/
def Node.value (round : Nat) : Node → Attempt Value
  | .scalar text isPlain =>
    if isPlain then (plainValue text).mapError fun error => (round, error)
    else .ok (.string (String.ofList text))
  | .list items => (itemValues (round + 1) items).map Value.list
  | .map entries => (entryValues (round + 1) entries).map Value.map

/-- The values of nodes that are met in a round. -/
def itemValues (round : Nat) : List Node → Attempt (List Value)
  | [] => .ok []
  | item :: rest =>
    (bothParts (item.value round) (itemValues round rest)).map fun values => values.1 :: values.2

/-- The values of entries that are met in a round. -/
def entryValues (round : Nat) : List (Node × Node) → Attempt (List (Value × Value))
  | [] => .ok []
  | (key, item) :: rest =>
    (bothParts (bothParts (asKey round key (key.value round)) (item.value round))
      (entryValues round rest)).map fun values => values.1 :: values.2

end

/-! ### Texts -/

/-- The value that a text holds, after a mark of its byte order if there is one. -/
def read (text : List Char) : Except ReadError Value := do
  if text.all isAllowed then
    let node ← Node.ofTokens
      (Token.ofText (if text.head? == some '\ufeff' then text.drop 1 else text))
    (node.value 0).mapError Prod.snd
  else .error .malformed

end OutlineDiagram.Yaml
