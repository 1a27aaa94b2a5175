/-
This file proves how trimming and cutting into words act on text that was put
together. Trimming the end of a text stops at the last character that is not
blank, and words joined by single cuts are found again, so a text of words says
the same words however often it is written.
-/

import Mathlib.Data.List.DropRight
import OutlineDiagram.Text.Blank

namespace OutlineDiagram.Text

/-! ### Trimming -/

theorem trimEnd_isPrefix (text : List Char) : trimEnd text <+: text :=
  List.rdropWhile_prefix isBlank text

theorem trimEnd_trimEnd (text : List Char) : trimEnd (trimEnd text) = trimEnd text :=
  List.rdropWhile_idempotent isBlank text

/-- A text that ends with a character that is not blank has nothing to trim there. -/
theorem trimEnd_concat (text : List Char) {last : Char} (solid : isBlank last = false) :
    trimEnd (text ++ [last]) = text ++ [last] :=
  List.rdropWhile_concat_neg isBlank text last (by simp [solid])

/-- Trimming the end does not reach past a character that is not blank. -/
theorem trimEnd_append_cons (before : List Char) {solid : Char} (isSolid : isBlank solid = false)
    (after : List Char) :
    trimEnd (before ++ solid :: after) = before ++ solid :: trimEnd after := by
  induction after using List.reverseRecOn with
  | nil => exact trimEnd_concat before isSolid
  | append_singleton rest last inductionHypothesis =>
    have regroup : before ++ solid :: (rest ++ [last]) = (before ++ solid :: rest) ++ [last] := by
      simp
    rw [regroup]
    show List.rdropWhile isBlank _ = before ++ solid :: List.rdropWhile isBlank _
    rw [List.rdropWhile_concat, List.rdropWhile_concat]
    split
    · exact inductionHypothesis
    · simp

/-- What is left after trimming the start is empty or starts with a character that is not
blank. -/
theorem trimStart_eq_nil_or_cons (text : List Char) :
    trimStart text = [] ∨
      ∃ solid after, isBlank solid = false ∧ trimStart text = solid :: after := by
  cases found : trimStart text with
  | nil => exact Or.inl rfl
  | cons solid after =>
    have head := List.head?_dropWhile_not isBlank text
    rw [show text.dropWhile isBlank = solid :: after from found] at head
    exact Or.inr ⟨solid, after, by simpa using head, rfl⟩

/-- Blanks before a character that is not blank are what trimming the start takes away. -/
theorem trimStart_append_cons {before : List Char} (blank : ∀ character ∈ before,
    isBlank character = true) {solid : Char} (isSolid : isBlank solid = false)
    (after : List Char) : trimStart (before ++ solid :: after) = solid :: after := by
  rw [trimStart, List.dropWhile_append_of_pos blank, List.dropWhile_cons_of_neg (by simp [isSolid])]

theorem leadingBlanks_append_cons {before : List Char} (blank : ∀ character ∈ before,
    isBlank character = true) {solid : Char} (isSolid : isBlank solid = false)
    (after : List Char) : leadingBlanks (before ++ solid :: after) = before := by
  rw [leadingBlanks, List.takeWhile_append_of_pos blank,
    List.takeWhile_cons_of_neg (by simp [isSolid]), List.append_nil]

theorem isBlank_of_mem_leadingBlanks {text : List Char} {character : Char}
    (member : character ∈ leadingBlanks text) : isBlank character = true :=
  List.mem_takeWhile_imp member

/-! ### Words -/

section Words

variable {cuts : Char → Bool}

/-- No word holds a character that cuts words apart. -/
theorem cuts_of_mem_wordsBy {text word : List Char} (member : word ∈ wordsBy cuts text)
    {character : Char} (inside : character ∈ word) : cuts character = false := by
  induction text generalizing word character with
  | nil => simp [wordsBy] at member
  | cons first rest inductionHypothesis =>
    rw [wordsBy] at member
    split at member
    · exact inductionHypothesis member inside
    · next whole =>
      have firstWhole : cuts first = false := by simpa using whole
      split at member
      · cases found : wordsBy cuts rest with
        | nil =>
          rw [found, extendFirst, List.mem_singleton] at member
          rw [member, List.mem_singleton] at inside
          rw [inside, firstWhole]
        | cons head others =>
          rw [found, extendFirst, List.mem_cons] at member
          rcases member with same | other
          · rw [same, List.mem_cons] at inside
            rcases inside with same | later
            · rw [same, firstWhole]
            · exact inductionHypothesis (by rw [found]; exact List.mem_cons_self) later
          · exact inductionHypothesis (by rw [found]; exact List.mem_cons_of_mem _ other) inside
      · rcases List.mem_cons.mp member with same | other
        · rw [same, List.mem_singleton] at inside
          rw [inside, firstWhole]
        · exact inductionHypothesis other inside

/-- A word that is followed by nothing or by a cut is the first word, and the words of what
follows come after it. -/
theorem wordsBy_append {word rest : List Char} (nonempty : word ≠ [])
    (whole : ∀ character ∈ word, cuts character = false) (closed : startsWord cuts rest = false) :
    wordsBy cuts (word ++ rest) = word :: wordsBy cuts rest := by
  induction word with
  | nil => exact absurd rfl nonempty
  | cons first others inductionHypothesis =>
    have firstWhole : cuts first = false := whole first List.mem_cons_self
    rw [List.cons_append, wordsBy, if_neg (by simp [firstWhole])]
    cases others with
    | nil => rw [List.nil_append, if_neg (by simp [closed])]
    | cons second later =>
      have secondWhole : cuts second = false := whole second (by simp)
      rw [if_pos (by simp [startsWord, secondWhole]),
        inductionHypothesis (by simp) fun character inside =>
          whole character (List.mem_cons_of_mem _ inside), extendFirst]

/-- Words joined by single cuts are found again. -/
theorem wordsBy_intercalate {cut : Char} (isCut : cuts cut = true) {parts : List (List Char)}
    (nonempty : ∀ part ∈ parts, part ≠ [])
    (whole : ∀ part ∈ parts, ∀ character ∈ part, cuts character = false) :
    wordsBy cuts ([cut].intercalate parts) = parts := by
  induction parts with
  | nil => rfl
  | cons part others inductionHypothesis =>
    have partNonempty := nonempty part List.mem_cons_self
    have partWhole := whole part List.mem_cons_self
    have othersFound := inductionHypothesis
      (fun other member => nonempty other (List.mem_cons_of_mem _ member))
      fun other member => whole other (List.mem_cons_of_mem _ member)
    cases others with
    | nil =>
      have alone := wordsBy_append partNonempty partWhole (show startsWord cuts [] = false from rfl)
      rw [List.intercalate_singleton]
      simpa [wordsBy] using alone
    | cons second later =>
      rw [List.intercalate_cons_cons, List.append_assoc,
        wordsBy_append partNonempty partWhole (by simp [startsWord, isCut]),
        List.singleton_append, wordsBy, if_pos isCut, othersFound]

end Words

end OutlineDiagram.Text
