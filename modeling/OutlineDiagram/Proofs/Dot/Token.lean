/-
This file reads back the ids and labels of a diagram. A reader takes a word, or a
quoted string up to the quote that closes it, off the front of a line and gives back
what is left of the line. Since quotes and backslashes are escaped, a quoted string
is closed by the quote that was written to close it: no id and no label breaks out
of its string, whatever comes after it.
-/

import OutlineDiagram.Dot.Token
import OutlineDiagram.Proofs.Text.Words

namespace OutlineDiagram.Dot

/-! ### Readers -/

/-- What is left of a text after a start that it must have. -/
def expect (start : String) (text : List Char) : Option (List Char) :=
  text.dropPrefix? start.toList

/-- The content of a quoted string, and what is left after the quote that closes it. What a
backslash and the character after it stand for is given by that character. -/
def readUpToQuote (unescape : Char → List Char) : List Char → Option (List Char × List Char)
  | [] => none
  | '"' :: rest => some ([], rest)
  | '\\' :: escaped :: rest =>
    (readUpToQuote unescape rest).map (Prod.map (unescape escaped ++ ·) id)
  | first :: rest => (readUpToQuote unescape rest).map (Prod.map (first :: ·) id)

/-- What stands for an escaped character of a label: nothing for the end of a line, else the
character. -/
def unescapeLabel : Char → List Char
  | 'n' => []
  | escaped => [escaped]

/-- The content of a quoted string without the ends of its lines, and what is left after the quote
that closes it. -/
def readQuoted : List Char → Option (List Char × List Char) := readUpToQuote unescapeLabel

/-- An id at the start of a text, bare or quoted, and what is left after it. -/
def readId : List Char → Option (String × List Char)
  | '"' :: rest => (readQuoted rest).map (Prod.map String.ofList id)
  | text =>
    let word := text.takeWhile continuesIdentifier
    if word.isEmpty then none
    else some (String.ofList word, text.dropWhile continuesIdentifier)

/-! ### Texts on one line -/

/-- The text has no newline. -/
def IsOneLine (text : String) : Prop := '\n' ∉ text.toList

instance (text : String) : Decidable (IsOneLine text) :=
  inferInstanceAs (Decidable ('\n' ∉ text.toList))

@[simp] theorem isOneLine_append {first second : String} :
    IsOneLine (first ++ second) ↔ IsOneLine first ∧ IsOneLine second := by
  rw [IsOneLine, String.toList_append, List.mem_append, not_or]
  rfl

/-- Letters are told apart without decoding the text that they make. -/
theorem isOneLine_ofList {letters : List Char} (noNewline : '\n' ∉ letters) :
    IsOneLine (String.ofList letters) := by
  rw [IsOneLine, String.toList_ofList]
  exact noNewline

/-! ### Stretches of a list -/

section Stretches

variable {α : Type} {test : α → Bool} {stretch rest : List α}
  (inside : ∀ member ∈ stretch, test member = true) (ends : ∀ next ∈ rest.head?, test next = false)

include inside ends

theorem takeWhile_append_of_stops : (stretch ++ rest).takeWhile test = stretch := by
  rw [List.takeWhile_append_of_pos inside]
  cases rest with
  | nil => simp
  | cons next others => simp [ends next rfl]

theorem dropWhile_append_of_stops : (stretch ++ rest).dropWhile test = rest := by
  rw [List.dropWhile_append_of_pos inside]
  cases rest with
  | nil => rfl
  | cons next others => simp [ends next rfl]

end Stretches

/-! ### Quoted strings -/

@[simp] theorem expect_append (start : String) (rest : List Char) :
    expect start (start.toList ++ rest) = some rest :=
  List.dropPrefix?_append_of_beq rest (beq_self_eq_true _)

section

variable {unescape : Char → List Char} (backslash : unescape '\\' = ['\\'])
  (quote : unescape '"' = ['"'])

include backslash quote

/-- One character of a quoted string is read back, whatever comes after it. -/
theorem readUpToQuote_escapeChar (character : Char) (rest : List Char) :
    readUpToQuote unescape (escapeChar character ++ rest) =
      (readUpToQuote unescape rest).map (Prod.map (character :: ·) id) := by
  unfold escapeChar
  split
  · rw [List.cons_append, List.cons_append, readUpToQuote, backslash]
    rfl
  · rw [List.cons_append, List.cons_append, readUpToQuote, quote]
    rfl
  · rename_i noBackslash noQuote
    rw [List.singleton_append, readUpToQuote]
    · exact noQuote
    · exact fun _ _ same _ => noBackslash same

/-- A quoted string is closed by the quote after its content. -/
theorem readUpToQuote_escape (text rest : List Char) :
    readUpToQuote unescape (escape text ++ '"' :: rest) = some (text, rest) := by
  induction text with
  | nil => rfl
  | cons first others inductionHypothesis =>
    rw [escape, List.flatMap_cons, List.append_assoc, readUpToQuote_escapeChar backslash quote,
      ← escape, inductionHypothesis]
    rfl

end

/-- The line ends put into a label are the only characters that reading it back leaves out. -/
theorem readQuoted_wrapFrom (step position multiple : Nat) (text rest : List Char) :
    readQuoted (wrapFrom step position multiple text ++ '"' :: rest) = some (text, rest) := by
  rw [readQuoted]
  induction text generalizing position multiple with
  | nil => rfl
  | cons first others inductionHypothesis =>
    rw [wrapFrom]
    split
    · rw [List.append_assoc, readUpToQuote_escapeChar rfl rfl, List.cons_append, List.cons_append,
        readUpToQuote, inductionHypothesis]
      rfl
    · rw [List.append_assoc, readUpToQuote_escapeChar rfl rfl, inductionHypothesis]
      rfl

/-- A label that was cut into lines is read back without the blanks around it. -/
theorem readQuoted_wrap (width : Int) (label rest : List Char) :
    readQuoted (wrap width label ++ '"' :: rest) = some (Text.trim label, rest) := by
  rw [wrap]
  split
  · exact readUpToQuote_escape rfl rfl _ rest
  · exact readQuoted_wrapFrom _ _ _ _ rest

/-! ### Ids -/

theorem continuesIdentifier_of_startsIdentifier {character : Char}
    (starts : startsIdentifier character = true) : continuesIdentifier character = true := by
  rw [startsIdentifier, Bool.or_eq_true] at starts
  rw [continuesIdentifier, Char.isAlphanum, Bool.or_eq_true, Bool.or_eq_true]
  exact starts.imp_left Or.inl

theorem continuesIdentifier_of_mem_tail {tail : List Char}
    (identifier : isIdentifierTail tail = true) (oneLine : '\n' ∉ tail) :
    ∀ character ∈ tail, continuesIdentifier character = true := by
  fun_induction isIdentifierTail tail with
  | case1 => exact fun _ member => absurd member List.not_mem_nil
  | case2 => exact absurd List.mem_cons_self oneLine
  | case3 first rest _ inductionHypothesis =>
    obtain ⟨own, others⟩ := Bool.and_eq_true_iff.mp identifier
    exact List.forall_mem_cons.mpr ⟨own, inductionHypothesis others fun member =>
      oneLine (List.mem_cons_of_mem _ member)⟩

/-- A bare id is a word that does not start like a quoted string. -/
theorem isPlainId_word {text : List Char} (plain : isPlainId text = true) (oneLine : '\n' ∉ text) :
    text ≠ [] ∧ text.head? ≠ some '"' ∧
      ∀ character ∈ text, continuesIdentifier character = true := by
  cases text with
  | nil => exact absurd plain Bool.false_ne_true
  | cons first rest =>
    obtain ⟨starts, identifier⟩ := Bool.and_eq_true_iff.mp plain
    refine ⟨List.cons_ne_nil _ _, fun quote => ?_, List.forall_mem_cons.mpr
      ⟨continuesIdentifier_of_startsIdentifier starts, continuesIdentifier_of_mem_tail identifier
        fun member => oneLine (List.mem_cons_of_mem _ member)⟩⟩
    rw [List.head?_cons, Option.some_inj] at quote
    rw [quote] at starts
    exact absurd starts (by decide)

/-- An id that was written as a word or as a quoted string is read back, unless what comes after it
goes on with the word. -/
theorem readId_quoteId {id : String} (oneLine : IsOneLine id) (rest : List Char)
    (ends : ∀ next ∈ rest.head?, continuesIdentifier next = false) :
    readId ((quoteId id).toList ++ rest) = some (id, rest) := by
  rw [quoteId]
  split
  · rename_i plain
    obtain ⟨some, noQuote, word⟩ := isPlainId_word plain oneLine
    rw [readId]
    · rw [takeWhile_append_of_stops word ends, dropWhile_append_of_stops word ends,
        if_neg (by simpa using some), String.ofList_toList]
    · intro others starts
      have first := congrArg List.head? starts
      rw [List.head?_append_of_ne_nil _ some] at first
      exact noQuote first
  · have written : ("\"" ++ String.ofList (escape id.toList) ++ "\"").toList ++ rest =
        '"' :: (escape id.toList ++ '"' :: rest) := by simp
    rw [written, readId, readQuoted, readUpToQuote_escape rfl rfl, Option.map_some, Prod.map_apply,
      String.ofList_toList, id_eq]

theorem readId_quoteId_space {id : String} (oneLine : IsOneLine id) (rest : List Char) :
    readId ((quoteId id).toList ++ ' ' :: rest) = some (id, ' ' :: rest) :=
  readId_quoteId oneLine _ fun _ same => Option.some_inj.mp same ▸ by decide

theorem readId_quoteId_end {id : String} (oneLine : IsOneLine id) :
    readId (quoteId id).toList = some (id, []) := by
  rw [← List.append_nil (quoteId id).toList]
  exact readId_quoteId oneLine [] fun _ none => absurd none (by simp)

/-! ### Newlines in quoted texts -/

theorem newline_mem_escapeChar {character : Char} (member : '\n' ∈ escapeChar character) :
    character = '\n' := by
  unfold escapeChar at member
  split at member
  · exact absurd member (by decide)
  · exact absurd member (by decide)
  · exact (List.mem_singleton.mp member).symm

theorem newline_mem_escape {text : List Char} (member : '\n' ∈ escape text) : '\n' ∈ text := by
  obtain ⟨character, inside, written⟩ := List.mem_flatMap.mp member
  exact newline_mem_escapeChar written ▸ inside

theorem newline_mem_wrapFrom {step position multiple : Nat} {text : List Char}
    (member : '\n' ∈ wrapFrom step position multiple text) : '\n' ∈ text := by
  induction text generalizing position multiple with
  | nil => exact member
  | cons first rest inductionHypothesis =>
    have further : '\n' ∈ escapeChar first ∨
        ∃ later next, '\n' ∈ wrapFrom step later next rest := by
      rw [wrapFrom] at member
      split at member
      · rcases List.mem_append.mp member with own | others
        · exact Or.inl own
        · have skipped := List.mem_of_ne_of_mem (by decide)
            (List.mem_of_ne_of_mem (by decide) others)
          exact Or.inr ⟨_, _, skipped⟩
      · exact (List.mem_append.mp member).imp_right fun others => ⟨_, _, others⟩
    rcases further with own | ⟨_, _, others⟩
    · exact newline_mem_escapeChar own ▸ List.mem_cons_self
    · exact List.mem_cons_of_mem _ (inductionHypothesis others)

theorem mem_of_mem_trim {text : List Char} {character : Char}
    (member : character ∈ Text.trim text) : character ∈ text :=
  (List.dropWhile_suffix _).subset ((Text.trimEnd_isPrefix _).subset member)

theorem isOneLine_wrap {label : String} (oneLine : IsOneLine label) (width : Int) :
    IsOneLine (String.ofList (wrap width label.toList)) := by
  refine isOneLine_ofList fun member => oneLine (mem_of_mem_trim ?_)
  rw [wrap] at member
  split at member
  · exact newline_mem_escape member
  · exact newline_mem_wrapFrom member

theorem isOneLine_quoteId {id : String} (oneLine : IsOneLine id) : IsOneLine (quoteId id) := by
  rw [quoteId]
  split
  · exact oneLine
  · have content : IsOneLine (String.ofList (escape id.toList)) :=
      isOneLine_ofList (mt newline_mem_escape oneLine)
    exact isOneLine_append.mpr ⟨isOneLine_append.mpr ⟨by decide, content⟩, by decide⟩

end OutlineDiagram.Dot
