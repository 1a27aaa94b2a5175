/-
This file finds the structure of a YAML text in its tokens. A file holds at most
one document, and a document is a text, a list or a mapping; where a value is
missing it is the empty text. The first token that cannot follow those before it
makes the text invalid; it may itself say why the text cannot be read there.
-/

import OutlineDiagram.Yaml.Token

namespace OutlineDiagram.Yaml

/-- A piece of a document. -/
inductive Node where
  /-- A text, and whether it stands without quotes. -/
  | scalar (text : List Char) (isPlain : Bool)
  /-- A list. -/
  | list (items : List Node)
  /-- A mapping. -/
  | map (entries : List (Node × Node))
  deriving Inhabited

namespace Node

/-- The text where nothing is written. -/
def empty : Node := scalar [] true

/-- The tokens start with one of the given ones. -/
def startsWith (expected : List Token) : List Token → Bool
  | [] => true
  | next :: _ => expected.contains next

/-- Why the tokens cannot follow those before them. -/
def refusal : List Token → ReadError
  | .unreadable error :: _ => error
  | _ => .malformed

mutual

/-- The node that the tokens start with, and the rest. Lists and mappings by indentation are
looked for in blocks only, and a list that is not indented only as the value of a key. -/
def read (isBlock mayBeFlat : Bool) :
    (fuel : Nat) → List Token → Except ReadError (Node × List Token)
  | 0, _ => .error .malformed
  | fuel + 1, tokens =>
    match tokens with
    | .scalar text isPlain :: rest => .ok (scalar text isPlain, rest)
    | .flowListStart :: rest => (readFlowItems true fuel rest).map fun read => (list read.1, read.2)
    | .flowMapStart :: rest => (readFlowEntries true fuel rest).map fun read => (map read.1, read.2)
    | .blockEntry :: _ =>
      if mayBeFlat then (readFlatItems fuel tokens).map fun read => (list read.1, read.2)
      else .error (refusal tokens)
    | .blockListStart :: rest =>
      if isBlock then (readItems fuel rest).map fun read => (list read.1, read.2)
      else .error (refusal tokens)
    | .blockMapStart :: rest =>
      if isBlock then (readEntries fuel rest).map fun read => (map read.1, read.2)
      else .error (refusal tokens)
    | _ => .error (refusal tokens)

/-- The node that the tokens start with, or nothing before one of the given tokens. -/
def readOrEmpty (isBlock mayBeFlat : Bool) (ends : List Token) :
    (fuel : Nat) → List Token → Except ReadError (Node × List Token)
  | 0, _ => .error .malformed
  | fuel + 1, tokens =>
    if startsWith ends tokens then .ok (empty, tokens) else read isBlock mayBeFlat fuel tokens

/-- The items of an indented list, and what follows its end. -/
def readItems : (fuel : Nat) → List Token → Except ReadError (List Node × List Token)
  | 0, _ => .error .malformed
  | fuel + 1, tokens =>
    match tokens with
    | .blockEntry :: rest => do
      let item ← readOrEmpty true false [.blockEntry, .blockEnd] fuel rest
      let others ← readItems fuel item.2
      .ok (item.1 :: others.1, others.2)
    | .blockEnd :: rest => .ok ([], rest)
    | _ => .error (refusal tokens)

/-- The items of a list that is not indented, and what follows them. -/
def readFlatItems : (fuel : Nat) → List Token → Except ReadError (List Node × List Token)
  | 0, _ => .error .malformed
  | fuel + 1, tokens =>
    match tokens with
    | .blockEntry :: rest => do
      let item ← readOrEmpty true false [.blockEntry, .key, .value, .blockEnd] fuel rest
      let others ← readFlatItems fuel item.2
      .ok (item.1 :: others.1, others.2)
    | _ => .ok ([], tokens)

/-- The entries of an indented mapping, and what follows its end. -/
def readEntries : (fuel : Nat) → List Token → Except ReadError (List (Node × Node) × List Token)
  | 0, _ => .error .malformed
  | fuel + 1, tokens =>
    match tokens with
    | .key :: rest => do
      let key ← readOrEmpty true true [.key, .value, .blockEnd] fuel rest
      let value ←
        match key.2 with
        | .value :: later => readOrEmpty true true [.key, .value, .blockEnd] fuel later
        | later => .ok (empty, later)
      let others ← readEntries fuel value.2
      .ok ((key.1, value.1) :: others.1, others.2)
    | .blockEnd :: rest => .ok ([], rest)
    | _ => .error (refusal tokens)

/-- The items of a list in brackets, and what follows its end. Every item but the first comes
after a comma; a key makes a mapping of one entry. -/
def readFlowItems (isFirst : Bool) :
    (fuel : Nat) → List Token → Except ReadError (List Node × List Token)
  | 0, _ => .error .malformed
  | fuel + 1, tokens =>
    match tokens with
    | .flowListEnd :: rest => .ok ([], rest)
    | _ => do
      let started ←
        match isFirst, tokens with
        | true, _ => .ok tokens
        | false, .flowEntry :: rest => .ok rest
        | false, _ => .error (refusal tokens)
      match started with
      | .flowListEnd :: rest => .ok ([], rest)
      | .key :: rest => do
        let key ← readOrEmpty false false [.value, .flowEntry, .flowListEnd] fuel rest
        let value ←
          match key.2 with
          | .value :: later => readOrEmpty false false [.flowEntry, .flowListEnd] fuel later
          | later => .ok (empty, later)
        let others ← readFlowItems false fuel value.2
        .ok (map [(key.1, value.1)] :: others.1, others.2)
      | _ => do
        let item ← read false false fuel started
        let others ← readFlowItems false fuel item.2
        .ok (item.1 :: others.1, others.2)

/-- The entries of a mapping in braces, and what follows its end. Every entry but the first comes
after a comma; a text that is no key has no value. -/
def readFlowEntries (isFirst : Bool) :
    (fuel : Nat) → List Token → Except ReadError (List (Node × Node) × List Token)
  | 0, _ => .error .malformed
  | fuel + 1, tokens =>
    match tokens with
    | .flowMapEnd :: rest => .ok ([], rest)
    | _ => do
      let started ←
        match isFirst, tokens with
        | true, _ => .ok tokens
        | false, .flowEntry :: rest => .ok rest
        | false, _ => .error (refusal tokens)
      match started with
      | .flowMapEnd :: rest => .ok ([], rest)
      | .key :: rest => do
        let key ← readOrEmpty false false [.value, .flowEntry, .flowMapEnd] fuel rest
        let value ←
          match key.2 with
          | .value :: later => readOrEmpty false false [.flowEntry, .flowMapEnd] fuel later
          | later => .ok (empty, later)
        let others ← readFlowEntries false fuel value.2
        .ok ((key.1, value.1) :: others.1, others.2)
      | _ => do
        let key ← read false false fuel started
        let others ← readFlowEntries false fuel key.2
        .ok ((key.1, empty) :: others.1, others.2)

end

/-- The document that the tokens hold; nothing where there is none. Between two documents
nothing is allowed, so that a second one makes the text invalid. -/
def ofTokens (tokens : List Token) : Except ReadError Node := do
  let fuel := 2 * tokens.length + 2
  let read ←
    match tokens with
    | [] => .ok (empty, [])
    | .documentStart :: rest =>
      if startsWith [.documentStart, .documentEnd] rest then .ok (empty, rest)
      else read true false fuel rest
    | _ => read true false fuel tokens
  match read.2.dropWhile (· == .documentEnd) with
  | [] => .ok read.1
  | others => .error (refusal others)

end Node

end OutlineDiagram.Yaml
