/-
This file cuts a YAML text into tokens. Indentation opens and closes block
collections, so the tokens for their starts and ends are found by the column of
what stands on a line. A text is a key only if a colon follows it on its line;
until that is known, the place where its key token would go is remembered. Where a
text cannot be cut any further, its last token says why.
-/

import OutlineDiagram.Yaml.Plain

namespace OutlineDiagram.Yaml

/-! ### Tokens -/

/-- A token. -/
inductive Token where
  /-- A line that starts a document. -/
  | documentStart
  /-- A line that ends a document. -/
  | documentEnd
  /-- A list by indentation starts. -/
  | blockListStart
  /-- A mapping by indentation starts. -/
  | blockMapStart
  /-- A collection by indentation ends. -/
  | blockEnd
  /-- A list in brackets starts. -/
  | flowListStart
  /-- A list in brackets ends. -/
  | flowListEnd
  /-- A mapping in braces starts. -/
  | flowMapStart
  /-- A mapping in braces ends. -/
  | flowMapEnd
  /-- An item of a list by indentation follows. -/
  | blockEntry
  /-- An item in brackets or braces follows. -/
  | flowEntry
  /-- A key follows. -/
  | key
  /-- The value of a key follows. -/
  | value
  /-- A text, and whether it stands without quotes. -/
  | scalar (text : List Char) (isPlain : Bool)
  /-- What follows cannot be read. -/
  | unreadable (error : ReadError)
  deriving DecidableEq, Repr

/-! ### The state of a scan -/

/-- A place where a key may have started. -/
structure KeyPlace where
  /-- The depth of brackets there. -/
  level : Nat
  /-- The number of tokens before it. -/
  position : Nat
  /-- What starts there has to be a key. -/
  isRequired : Bool
  /-- The number of characters before it. -/
  index : Nat
  /-- Its line. -/
  line : Nat
  /-- Its column. -/
  column : Int
  deriving Repr

/-- The state of a scan. -/
structure Scan where
  /-- The text that is left. -/
  rest : List Char
  /-- The number of characters read. -/
  index : Nat := 0
  /-- The number of lines read. -/
  line : Nat := 0
  /-- The number of characters read on the line. -/
  column : Int := 0
  /-- The depth of brackets. -/
  level : Nat := 0
  /-- The column of the innermost collection by indentation. -/
  indent : Int := -1
  /-- The columns of the collections around it. -/
  indents : List Int := []
  /-- A key may start here. -/
  allowsKey : Bool := true
  /-- The places where keys may have started, at most one for each depth of brackets. -/
  places : List KeyPlace := []
  /-- The tokens found. -/
  tokens : List Token := []

namespace Scan

/-- The state after some characters. -/
def advance (scan : Scan) : Nat → Scan
  | 0 => scan
  | count + 1 =>
    match scan.rest with
    | [] => scan
    | first :: rest =>
      let moved := { scan with rest := rest, index := scan.index + 1 }
      let next :=
        if isBreak first && !(first == '\r' && rest.head? == some '\n') then
          { moved with line := scan.line + 1, column := 0 }
        else if first = '\ufeff' then moved
        else { moved with column := scan.column + 1 }
      next.advance count

/-- The state at a later point of the text. -/
def moveTo (scan : Scan) (rest : List Char) : Scan := scan.advance (scan.rest.length - rest.length)

/-- The state with one more token. -/
def emit (scan : Scan) (token : Token) : Scan := { scan with tokens := scan.tokens ++ [token] }

/-- The state in which a key may start, or may not. -/
def allowing (scan : Scan) (allowsKey : Bool) : Scan := { scan with allowsKey := allowsKey }

/-! ### Places of keys -/

/-- The state without the place remembered at the present depth. None if a key had to start
there. -/
def dropPlace (scan : Scan) : Option Scan :=
  let isHere (place : KeyPlace) : Bool := place.level == scan.level
  if scan.places.any fun place => isHere place && place.isRequired then none
  else some { scan with places := scan.places.filter fun place => !isHere place }

/-- The state with the present point remembered as the place of a key, where a key may start. -/
def savePlace (scan : Scan) : Option Scan :=
  if scan.allowsKey then
    scan.dropPlace.map fun cleared =>
      { cleared with
        places := cleared.places ++
          [⟨scan.level, scan.tokens.length, scan.level == 0 && scan.indent == scan.column,
            scan.index, scan.line, scan.column⟩] }
  else some scan

/-- The state without places that are on another line or too far back. None if a key had to
start at one of them. -/
def dropStale (scan : Scan) : Option Scan :=
  let isStale (place : KeyPlace) : Bool :=
    place.line != scan.line || 1024 < scan.index - place.index
  if scan.places.any fun place => isStale place && place.isRequired then none
  else some { scan with places := scan.places.filter fun place => !isStale place }

/-! ### Indentation -/

/-- The state with the collections closed that are indented more than a column. -/
def unwindTo (column : Int) : (fuel : Nat) → Scan → Scan
  | 0, scan => scan
  | fuel + 1, scan =>
    if scan.level = 0 ∧ column < scan.indent then
      unwindTo column fuel
        { scan.emit .blockEnd with
          indent := scan.indents.headD (-1), indents := scan.indents.drop 1 }
    else scan

/-- The state with the collections closed that are indented more than a column. -/
def unwind (scan : Scan) (column : Int) : Scan := unwindTo column (scan.indents.length + 1) scan

/-- The state with a collection opened at a column if it is indented more than those around it,
its token put at a position. -/
def openAt (scan : Scan) (column : Int) (position : Nat) (token : Token) : Scan :=
  if scan.indent < column then
    { scan with
      indent := column
      indents := scan.indent :: scan.indents
      tokens := scan.tokens.take position ++ token :: scan.tokens.drop position }
  else scan

/-! ### Single tokens -/

/-- A mark of one character. -/
def mark (scan : Scan) (token : Token) : Scan := (scan.advance 1).emit token

/-- A line that starts or ends a document. -/
def separator (scan : Scan) (token : Token) : Option Scan :=
  ((scan.unwind (-1)).dropPlace).map fun cleared =>
    ((cleared.allowing false).advance 3).emit token

/-- A collection in brackets or braces starts. -/
def flowStart (scan : Scan) (token : Token) : Option Scan :=
  scan.savePlace.map fun saved =>
    Scan.mark { saved with level := saved.level + 1, allowsKey := true } token

/-- A collection in brackets or braces ends. -/
def flowEnd (scan : Scan) (token : Token) : Option Scan :=
  scan.dropPlace.map fun cleared =>
    Scan.mark { cleared with level := cleared.level - 1, allowsKey := false } token

/-- A comma between brackets or braces. -/
def flowEntry (scan : Scan) : Option Scan :=
  (scan.allowing true).dropPlace.map fun cleared => cleared.mark .flowEntry

/-- A dash before an item. -/
def blockEntry (scan : Scan) : Option Scan :=
  if scan.level = 0 ∧ scan.allowsKey = false then none
  else
    let opened :=
      if scan.level = 0 then scan.openAt scan.column scan.tokens.length .blockListStart else scan
    (opened.allowing true).dropPlace.map fun cleared => cleared.mark .blockEntry

/-- A question mark before a key. -/
def explicitKey (scan : Scan) : Option Scan :=
  if scan.level = 0 ∧ scan.allowsKey = false then none
  else
    let opened :=
      if scan.level = 0 then scan.openAt scan.column scan.tokens.length .blockMapStart else scan
    (opened.allowing (scan.level == 0)).dropPlace.map fun cleared => cleared.mark .key

/-- A colon before a value. It makes what started at the remembered place a key. -/
def colon (scan : Scan) : Option Scan :=
  match scan.places.find? fun place => place.level == scan.level with
  | some place =>
    let cleared :=
      { scan with
        places := scan.places.filter fun other => other.level != scan.level
        tokens := scan.tokens.take place.position ++ Token.key :: scan.tokens.drop place.position
        allowsKey := false }
    let opened :=
      if scan.level = 0 then cleared.openAt place.column place.position .blockMapStart
      else cleared
    some (opened.mark .value)
  | none =>
    if scan.level = 0 ∧ scan.allowsKey = false then none
    else
      let opened :=
        if scan.level = 0 then scan.openAt scan.column scan.tokens.length .blockMapStart else scan
      (opened.allowing (scan.level == 0)).dropPlace.map fun cleared => cleared.mark .value

/-- A text in quotes. -/
def quotedText (scan : Scan) (quote : Char) : Except ReadError Scan :=
  match scan.savePlace with
  | none => .error .malformed
  | some saved =>
    let body := saved.rest.drop 1
    (readQuoted quote (body.length + 1) body).map fun read =>
      ((saved.allowing false).moveTo read.2).emit (.scalar read.1 false)

/-- A text without quotes. -/
def plainText (scan : Scan) : Option Scan := do
  let saved ← scan.savePlace
  let read := readPlain (saved.level != 0) (saved.indent + 1) (saved.rest.length + 1) saved.rest
  some (((saved.allowing read.2.1).moveTo read.2.2).emit (.scalar read.1 true))

/-! ### All tokens -/

/-- Whether a line ended in the spaces and comments that a text starts with, and the rest. -/
def skipFiller : (inComment : Bool) → List Char → Bool × List Char
  | _, [] => (false, [])
  | inComment, first :: rest =>
    if isBreak first then (true, (skipFiller false rest).2)
    else if inComment || first == ' ' then skipFiller inComment rest
    else if first == '#' then skipFiller true rest
    else (false, first :: rest)

/-- The state at the next token. -/
def toNextToken (scan : Scan) : Scan :=
  let skipped := skipFiller false scan.rest
  let moved := scan.moveTo skipped.2
  if skipped.1 && scan.level == 0 then { moved with allowsKey := true } else moved

/-- The state after the next token, which starts with a given character, unless it is a text in
quotes. -/
def unquotedToken (scan : Scan) (first : Char) (rest : List Char) : Option Scan :=
  let inFlow := scan.level != 0
  if scan.column = 0 ∧ first = '-' ∧ atSeparator scan.rest then scan.separator .documentStart
  else if scan.column = 0 ∧ first = '.' ∧ atSeparator scan.rest then scan.separator .documentEnd
  else if first = '[' then scan.flowStart .flowListStart
  else if first = '\x7b' then scan.flowStart .flowMapStart
  else if first = ']' then scan.flowEnd .flowListEnd
  else if first = '\x7d' then scan.flowEnd .flowMapEnd
  else if first = ',' then scan.flowEntry
  else if first = '-' ∧ atGap rest then scan.blockEntry
  else if first = '?' ∧ (inFlow ∨ atGap rest) then scan.explicitKey
  else if first = ':' ∧ (inFlow ∨ atGap rest) then scan.colon
  else if startsPlain inFlow scan.rest then scan.plainText
  else none

/-- The state after the next token, which starts with a given character. -/
def nextToken (scan : Scan) (first : Char) (rest : List Char) : Except ReadError Scan :=
  if first = '\'' ∨ first = '"' then scan.quotedText first
  else
    match scan.unquotedToken first rest with
    | some next => .ok next
    | none => .error .malformed

/-- The tokens of a text that cannot be read beyond a state. Tokens before which a key token may
still have to be put do not count, nor do those after them. -/
def brokenTokens (scan : Scan) (error : ReadError) : List Token :=
  let certain :=
    match scan.dropStale with
    | some current =>
      (current.places.map KeyPlace.position).foldl min current.tokens.length
    | none => 0
  scan.tokens.take certain ++ [.unreadable error]

/-- The state from which the next token is read: filler is skipped, and collections that the token
is not indented enough for are closed. -/
def atNextToken (scan : Scan) : Option Scan :=
  scan.toNextToken.dropStale.map fun current => current.unwind current.column

/-- All tokens, where no more follow. -/
def allTokens? (scan : Scan) : Option (List Token) :=
  (scan.unwind (-1)).dropPlace.map Scan.tokens

/-- The tokens from a state on. Anchors, tags, block texts and directives are not read. -/
def run : (fuel : Nat) → Scan → List Token
  | 0, scan => scan.brokenTokens .malformed
  | fuel + 1, scan =>
    match scan.atNextToken with
    | none => scan.brokenTokens .malformed
    | some current =>
      match current.rest with
      | [] => current.allTokens?.getD (scan.brokenTokens .malformed)
      | first :: rest =>
        match current.nextToken first rest with
        | .ok next => run fuel next
        | .error error => scan.brokenTokens error

end Scan

/-- The tokens of a text. -/
def Token.ofText (text : List Char) : List Token := Scan.run (text.length + 1) { rest := text }

end OutlineDiagram.Yaml
