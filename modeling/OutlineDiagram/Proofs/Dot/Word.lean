/-
This file proves how ids are read as words of the DOT language. A word is a bare
identifier or a quoted string; some identifiers are keywords and mean something else.
An id is read back from the word that was written for it, so different ids have
different words. But a bare id is written whatever it says: an id that reads like a
keyword becomes that keyword, and no other id does.
-/

import Mathlib
import OutlineDiagram.Proofs.Dot.Token

namespace OutlineDiagram.Dot

/-! ### Words of the language -/

/-- A word of the language. -/
structure Word where
  /-- What the word says, without quotes and escapes. -/
  text : String
  /-- The word means something in the language and is no id. -/
  isKeyword : Bool
  deriving DecidableEq, Repr

/-- The keywords, in small letters. -/
def keywords : List String := ["node", "edge", "graph", "digraph", "subgraph", "strict"]

/-- The text reads like a keyword, in whatever letters. -/
def isKeyword (text : List Char) : Bool := keywords.contains (String.ofList (text.map Char.toLower))

/-- What stands for an escaped character of an id: a backslash escapes quotes and backslashes and
else stands for itself. -/
def unescapeId : Char → List Char
  | '\\' => ['\\']
  | '"' => ['"']
  | other => ['\\', other]

/-- The content of a quoted string and what is left after it. The string ends at the first quote
that is not escaped. -/
def readString : List Char → Option (List Char × List Char) := readUpToQuote unescapeId

/-- The word at the start of a text and what is left after it. A bare word is as long as letters,
digits and underscores follow each other, and it does not start with a digit. -/
def readWord : List Char → Option (Word × List Char)
  | '"' :: rest =>
    (readString rest).map (Prod.map (fun content => ⟨String.ofList content, false⟩) id)
  | text =>
    let word := text.takeWhile continuesIdentifier
    if word.isEmpty || word.head?.any Char.isDigit then none
    else some (⟨String.ofList word, isKeyword word⟩, text.dropWhile continuesIdentifier)

/-! ### Keywords -/

theorem isIdentifierTail_of_letters {text : List Char}
    (letters : ∀ character ∈ text, character.isAlpha = true) : isIdentifierTail text = true := by
  fun_induction isIdentifierTail text with
  | case1 => rfl
  | case2 => rfl
  | case3 first rest _ inductionHypothesis =>
    obtain ⟨own, others⟩ := List.forall_mem_cons.mp letters
    rw [inductionHypothesis others, continuesIdentifier, Char.isAlphanum, own]
    rfl

theorem isPlainId_of_letters {text : List Char} (notEmpty : text ≠ [])
    (letters : ∀ character ∈ text, character.isAlpha = true) : isPlainId text = true := by
  cases text with
  | nil => exact absurd rfl notEmpty
  | cons first rest =>
    obtain ⟨own, others⟩ := List.forall_mem_cons.mp letters
    rw [isPlainId, isIdentifierTail_of_letters others, startsIdentifier, own]
    rfl

/-- A keyword is never quoted. -/
theorem isPlainId_of_isKeyword {text : List Char} (keyword : isKeyword text = true) :
    isPlainId text = true := by
  have spelled : ∀ word ∈ keywords, word.toList ≠ [] ∧ word.toList.all Char.isAlpha = true := by
    decide
  have listed := List.contains_iff_mem.mp keyword
  obtain ⟨notEmpty, letters⟩ := spelled _ listed
  rw [String.toList_ofList] at notEmpty letters
  refine isPlainId_of_letters (fun empty => notEmpty (by rw [empty]; rfl)) fun character member => ?_
  rw [← Char.isAlpha_toLower_eq_isAlpha]
  exact List.all_eq_true.mp letters _ (List.mem_map_of_mem member)

/-! ### Ids -/

theorem isDigit_eq_false_of_startsIdentifier {character : Char}
    (starts : startsIdentifier character = true) : character.isDigit = false := by
  rw [startsIdentifier, Bool.or_eq_true, beq_iff_eq] at starts
  rcases starts with letter | rfl
  · simp only [Char.isAlpha, Char.isUpper, Char.isLower, Char.isDigit, Bool.or_eq_true,
      Bool.and_eq_true, Bool.and_eq_false_iff, decide_eq_true_eq, decide_eq_false_iff_not, ge_iff_le,
      UInt32.le_iff_toNat_le] at letter ⊢
    have capital : 'A'.val.toNat = 65 := rfl
    have small : 'a'.val.toNat = 97 := rfl
    have nine : '9'.val.toNat = 57 := rfl
    omega
  · rfl

/-- The word for an id says the id. It is a keyword if the id reads like one. -/
theorem readWord_quoteId {id : String} (oneLine : IsOneLine id) {rest : List Char}
    (ends : ∀ next ∈ rest.head?, continuesIdentifier next = false) :
    readWord ((quoteId id).toList ++ rest) = some (⟨id, isKeyword id.toList⟩, rest) := by
  rw [quoteId]
  split
  · next plain =>
    obtain ⟨notEmpty, noQuote, word⟩ := isPlainId_word plain oneLine
    obtain ⟨first, others, spelled⟩ := List.exists_cons_of_ne_nil notEmpty
    have noDigit : first.isDigit = false := by
      rw [spelled, isPlainId, Bool.and_eq_true] at plain
      exact isDigit_eq_false_of_startsIdentifier plain.1
    rw [readWord]
    · rw [takeWhile_append_of_stops word ends, dropWhile_append_of_stops word ends, if_neg,
        String.ofList_toList]
      simp [spelled, noDigit]
    · intro others starts
      have head := congrArg List.head? starts
      rw [List.head?_append_of_ne_nil _ notEmpty] at head
      exact noQuote head
  · next quoted =>
    have written : ("\"" ++ String.ofList (escape id.toList) ++ "\"").toList ++ rest =
        '"' :: (escape id.toList ++ '"' :: rest) := by simp
    have noKeyword : isKeyword id.toList = false :=
      Bool.eq_false_iff.mpr fun keyword => quoted (isPlainId_of_isKeyword keyword)
    rw [written, readWord, readString, readUpToQuote_escape rfl rfl, Option.map_some, Prod.map_apply,
      String.ofList_toList, noKeyword, id_eq]

/-- The word for an id is an id, and then the one that was written, exactly if the id does not read
like a keyword. It says the id in any case, and no other id has the same word. -/
theorem readWord_quoteId_iff {id : String} (oneLine : IsOneLine id) {rest : List Char}
    (ends : ∀ next ∈ rest.head?, continuesIdentifier next = false) :
    (readWord ((quoteId id).toList ++ rest) = some (⟨id, false⟩, rest) ↔
        isKeyword id.toList = false) ∧
      (∃ word, readWord ((quoteId id).toList ++ rest) = some (word, rest) ∧ word.text = id) ∧
      ∀ other, IsOneLine other → quoteId other = quoteId id → other = id := by
  have read := readWord_quoteId oneLine ends
  refine ⟨?_, ⟨_, read, rfl⟩, fun other otherOneLine same => ?_⟩
  · rw [read]
    simp
  · have readOther := readWord_quoteId otherOneLine ends
    rw [same, read] at readOther
    simp only [Option.some.injEq, Prod.mk.injEq, Word.mk.injEq] at readOther
    exact readOther.1.1.symm

/-- An id with a quote, a backslash at its end and a keyword in it, before an attribute list. -/
theorem readWord_quoteId_quoted :
    readWord ((quoteId "graph \"a\\").toList ++ " [".toList) =
      some (⟨"graph \"a\\", false⟩, " [".toList) := by
  refine (readWord_quoteId_iff (by decide) fun next isNext => ?_).1.mpr (by decide)
  obtain rfl := Option.some.inj isNext
  rfl

/-- An id that reads like a keyword is written as that keyword. -/
theorem readWord_quoteId_keyword :
    readWord (quoteId "node").toList ≠ some (⟨"node", false⟩, []) := by decide

end OutlineDiagram.Dot
