/-
This file proves that a label loses nothing when it is cut into lines. What is written
for it reads as its letters with line ends among them: no quote stands bare, no escape
is left open, and each line end comes right after a letter that a line may end with.
So the string around the label is closed by the quote that was written to close it.
-/

import OutlineDiagram.Proofs.Dot.Token

namespace OutlineDiagram.Dot

/-! ### Marks of a label -/

/-- What a reader finds in a quoted label. -/
inductive Mark where
  /-- A letter of the label. -/
  | letter (character : Char)
  /-- The end of a line. -/
  | lineEnd
  deriving DecidableEq, Repr

/-- The letter of a mark. -/
def Mark.letter? : Mark → Option Char
  | letter character => some character
  | lineEnd => none

/-- The marks of a label. There are none if a quote is not escaped, or if a backslash escapes nothing
that it may escape. -/
def readMarks : List Char → Option (List Mark)
  | [] => some []
  | '"' :: _ => none
  | '\\' :: '\\' :: rest => (readMarks rest).map (.letter '\\' :: ·)
  | '\\' :: '"' :: rest => (readMarks rest).map (.letter '"' :: ·)
  | '\\' :: 'n' :: rest => (readMarks rest).map (.lineEnd :: ·)
  | '\\' :: _ => none
  | first :: rest => (readMarks rest).map (.letter first :: ·)

/-- The letters that a line may end with. -/
def lineEnders : List Char := [' ', '\t', '-', '\\', '/']

/-- The marks are the letters of a text, some of those that a line may end with followed by a line
end. -/
inductive Wraps : List Char → List Mark → Prop where
  | nil : Wraps [] []
  | letter (first : Char) {text : List Char} {marks : List Mark} (rest : Wraps text marks) :
    Wraps (first :: text) (.letter first :: marks)
  | lineEnd {first : Char} (ends : first ∈ lineEnders) {text : List Char} {marks : List Mark}
    (rest : Wraps text marks) : Wraps (first :: text) (.letter first :: .lineEnd :: marks)

namespace Wraps

variable {text : List Char} {marks : List Mark} (wraps : Wraps text marks)

include wraps

theorem filterMap_letter? : marks.filterMap Mark.letter? = text := by
  induction wraps with
  | nil => rfl
  | letter first _ inductionHypothesis => exact congrArg (first :: ·) inductionHypothesis
  | @lineEnd first _ _ _ _ inductionHypothesis => exact congrArg (first :: ·) inductionHypothesis

/-- Right before a line end stands a letter that a line may end with. -/
theorem exists_of_lineEnd {before after : List Mark} (cut : marks = before ++ .lineEnd :: after) :
    ∃ start character, character ∈ lineEnders ∧ before = start ++ [.letter character] := by
  induction wraps generalizing before with
  | nil => exact absurd cut (by simp)
  | letter first _ inductionHypothesis =>
    cases before with
    | nil => exact absurd (List.cons.inj cut).1 (by simp)
    | cons mark before =>
      obtain ⟨rfl, further⟩ := List.cons.inj cut
      obtain ⟨start, character, ender, rfl⟩ := inductionHypothesis further
      exact ⟨_ :: start, character, ender, rfl⟩
  | @lineEnd first ends _ _ _ inductionHypothesis =>
    cases before with
    | nil => exact absurd (List.cons.inj cut).1 (by simp)
    | cons mark before =>
      obtain ⟨rfl, further⟩ := List.cons.inj cut
      cases before with
      | nil => exact ⟨[], first, ends, rfl⟩
      | cons mark before =>
        obtain ⟨rfl, later⟩ := List.cons.inj further
        obtain ⟨start, character, ender, rfl⟩ := inductionHypothesis later
        exact ⟨_ :: _ :: start, character, ender, rfl⟩

end Wraps

/-! ### Written labels -/

theorem readMarks_escapeChar (character : Char) (rest : List Char) :
    readMarks (escapeChar character ++ rest) = (readMarks rest).map (.letter character :: ·) := by
  unfold escapeChar
  split
  · rfl
  · rfl
  · rename_i noBackslash noQuote
    rw [List.singleton_append, readMarks]
    · exact noQuote
    · exact fun _ same _ => noBackslash same
    · exact fun _ same _ => noBackslash same
    · exact fun _ same _ => noBackslash same
    · exact noBackslash

theorem exists_wraps_escape (text : List Char) :
    ∃ marks, readMarks (escape text) = some marks ∧ Wraps text marks := by
  induction text with
  | nil => exact ⟨[], rfl, .nil⟩
  | cons first rest inductionHypothesis =>
    obtain ⟨marks, read, wraps⟩ := inductionHypothesis
    refine ⟨.letter first :: marks, ?_, wraps.letter first⟩
    rw [escape, List.flatMap_cons, readMarks_escapeChar, ← escape, read, Option.map_some]

theorem exists_wraps_wrapFrom (step position multiple : Nat) (text : List Char) :
    ∃ marks, readMarks (wrapFrom step position multiple text) = some marks ∧ Wraps text marks := by
  induction text generalizing position multiple with
  | nil => exact ⟨[], rfl, .nil⟩
  | cons first rest inductionHypothesis =>
    rw [wrapFrom]
    split
    · next ends =>
      obtain ⟨marks, read, wraps⟩ := inductionHypothesis (position + 1) (multiple + 1)
      have ender : first ∈ lineEnders :=
        List.contains_iff_mem.mp (Bool.and_eq_true_iff.mp ends).1
      refine ⟨.letter first :: .lineEnd :: marks, ?_, wraps.lineEnd ender⟩
      rw [readMarks_escapeChar, readMarks, read]
      rfl
    · obtain ⟨marks, read, wraps⟩ := inductionHypothesis (position + 1) multiple
      refine ⟨.letter first :: marks, ?_, wraps.letter first⟩
      rw [readMarks_escapeChar, read, Option.map_some]

/-- A label that was cut into lines reads as its letters without the blanks around it, whether it
fits one line or not. -/
theorem exists_wraps_wrap (width : Int) (label : List Char) :
    ∃ marks, readMarks (wrap width label) = some marks ∧ Wraps (Text.trim label) marks := by
  rw [wrap]
  split
  · exact exists_wraps_escape _
  · exact exists_wraps_wrapFrom _ _ _ _

/-- At every width but zero a label can be cut into lines. What is written for it has no bare quote
and no open escape; without its line ends it is the label without the blanks around it; each line
end comes right after a letter that a line may end with; and a quote after it closes the string. -/
theorem readMarks_wrap? {width : Int} (nonzero : width ≠ 0) (label : List Char) :
    ∃ text marks, wrap? width label = .ok text ∧ readMarks text = some marks ∧
      marks.filterMap Mark.letter? = Text.trim label ∧
      (∀ before after, marks = before ++ .lineEnd :: after →
        ∃ start character, character ∈ lineEnders ∧ before = start ++ [.letter character]) ∧
      ∀ rest, readQuoted (text ++ '"' :: rest) = some (Text.trim label, rest) := by
  obtain ⟨marks, read, wraps⟩ := exists_wraps_wrap width label
  refine ⟨wrap width label, marks, ?_, read, wraps.filterMap_letter?,
    fun before after => wraps.exists_of_lineEnd, readQuoted_wrap width label⟩
  rw [wrap?, if_neg nonzero]

/-- A label that is cut right after its backslashes, once before a quote: the line ends are told from
the escapes around them. -/
theorem readMarks_wrap?_backslash :
    (3 : Int) ≠ 0 ∧ ∃ text marks, wrap? 3 "ab\\\"c\\d".toList = .ok text ∧
      readMarks text = some marks ∧
      marks = [.letter 'a', .letter 'b', .letter '\\', .lineEnd, .letter '"', .letter 'c',
        .letter '\\', .lineEnd, .letter 'd'] ∧
      marks.filterMap Mark.letter? = "ab\\\"c\\d".toList := by
  obtain ⟨text, marks, written, read, letters, -⟩ :=
    readMarks_wrap? (show (3 : Int) ≠ 0 by decide) "ab\\\"c\\d".toList
  refine ⟨by decide, text, marks, written, read, ?_, letters.trans (by decide)⟩
  have cut : wrap? 3 "ab\\\"c\\d".toList = .ok "ab\\\\\\n\\\"c\\\\\\nd".toList := by
    decide +kernel
  obtain rfl := Except.ok.inj (cut.symm.trans written)
  exact Option.some.inj (read.symm.trans rfl)

end OutlineDiagram.Dot
