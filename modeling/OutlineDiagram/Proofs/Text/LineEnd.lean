/-
This file holds the ends of the lines of a text and proves that the lines with their
ends are the text again. The lines themselves hold nothing that could end a line. So
joining lines by newlines gives back the text exactly where every line ends in a
newline, and there it gives back the end of the text as well.
-/

import OutlineDiagram.Text.LineBreak
import Mathlib.Data.List.Basic

namespace OutlineDiagram.Text

/-- What ends the lines of a text, in order. A carriage return and a newline after it end a line
together. -/
def lineEnds : List Char → List (List Char)
  | [] => []
  | '\r' :: '\n' :: rest => ['\r', '\n'] :: lineEnds rest
  | first :: rest => if isLineBoundary first then [first] :: lineEnds rest else lineEnds rest

/-- Lines with an end after each of them. Where there are fewer ends, the last lines have none. -/
def joinLines : (lines ends : List (List Char)) → List Char
  | [], _ => []
  | line :: rest, [] => line ++ joinLines rest []
  | line :: rest, lineEnd :: others => line ++ lineEnd ++ joinLines rest others

/-- The text ends each of its lines with a newline. -/
def HasOnlyNewlines (text : List Char) : Prop :=
  ∀ character ∈ text, isLineBoundary character = true → character = '\n'

/-! ### Lines with their ends -/

theorem length_lineEnds (text : List Char) :
    (lineEnds text).length = (cutLines text).1.length := by
  fun_induction cutLines text with
  | case1 => rfl
  | case2 rest after inductionHypothesis => simp [lineEnds, inductionHypothesis, after]
  | case3 first rest notPair after boundary inductionHypothesis =>
    rw [lineEnds, if_pos boundary, List.length_cons, List.length_cons, inductionHypothesis]
    exact notPair
  | case4 first rest notPair after boundary single inductionHypothesis =>
    rw [lineEnds, if_neg boundary, inductionHypothesis, single]
    exact notPair
  | case5 first rest notPair after boundary line lines several inductionHypothesis =>
    rw [lineEnds, if_neg boundary, inductionHypothesis, several, List.length_cons,
      List.length_cons]
    exact notPair

theorem joinLines_cons_cons (first : Char) (line : List Char) (others ends : List (List Char)) :
    joinLines ((first :: line) :: others) ends = first :: joinLines (line :: others) ends := by
  cases ends <;> rfl

theorem joinLines_cutLines (text : List Char) :
    joinLines (cutLines text).1 (lineEnds text) ++ (cutLines text).2 = text := by
  fun_induction cutLines text with
  | case1 => rfl
  | case2 rest after inductionHypothesis =>
    rw [lineEnds, joinLines]
    simp [inductionHypothesis, after]
  | case3 first rest notPair after boundary inductionHypothesis =>
    rw [lineEnds, if_pos boundary, joinLines]
    · simp [inductionHypothesis, after]
    · exact notPair
  | case4 first rest notPair after boundary single inductionHypothesis =>
    rw [single] at inductionHypothesis
    exact congrArg (first :: ·) inductionHypothesis
  | case5 first rest notPair after boundary line lines several inductionHypothesis =>
    rw [lineEnds, if_neg boundary, joinLines_cons_cons, List.cons_append, ← several,
      inductionHypothesis]
    exact notPair

/-- The lines of a text with their ends are the text. -/
theorem joinLines_lines (text : List Char) : joinLines (lines text) (lineEnds text) = text := by
  have joined := joinLines_cutLines text
  have lengths := length_lineEnds text
  rw [lines]
  by_cases ended : (cutLines text).2.isEmpty = true
  · rw [if_pos ended]
    rwa [List.isEmpty_iff.mp ended, List.append_nil] at joined
  · rw [if_neg ended]
    conv_rhs => rw [← joined]
    generalize lineEnds text = ends, (cutLines text).1 = whole, (cutLines text).2 = last at lengths
    induction whole generalizing ends with
    | nil =>
      obtain rfl := List.length_eq_zero_iff.mp lengths
      exact List.append_nil last
    | cons line rest inductionHypothesis =>
      cases ends with
      | nil => exact absurd lengths (by simp)
      | cons lineEnd others =>
        have further := inductionHypothesis others (Nat.succ.inj lengths)
        rw [List.cons_append, joinLines, joinLines, further, List.append_assoc _ _ last]

/-! ### Lines without their ends -/

/-- No line holds a character that ends lines. -/
theorem isLineBoundary_of_mem_cutLines (text : List Char) :
    (∀ line ∈ (cutLines text).1, ∀ character ∈ line, isLineBoundary character = false) ∧
      ∀ character ∈ (cutLines text).2, isLineBoundary character = false := by
  fun_induction cutLines text with
  | case1 => simp
  | case2 rest after inductionHypothesis => simpa [after] using inductionHypothesis
  | case3 first rest notPair after boundary inductionHypothesis =>
    simpa [after] using inductionHypothesis
  | case4 first rest notPair after boundary single inductionHypothesis =>
    have inside := Bool.not_eq_true _ ▸ boundary
    exact ⟨by simp, List.forall_mem_cons.mpr ⟨inside, inductionHypothesis.2⟩⟩
  | case5 first rest notPair after boundary line lines several inductionHypothesis =>
    have inside := Bool.not_eq_true _ ▸ boundary
    rw [several, List.forall_mem_cons] at inductionHypothesis
    obtain ⟨⟨own, others⟩, last⟩ := inductionHypothesis
    exact ⟨List.forall_mem_cons.mpr ⟨List.forall_mem_cons.mpr ⟨inside, own⟩, others⟩, last⟩

theorem isLineBoundary_of_mem_lines {text line : List Char} (member : line ∈ lines text)
    {character : Char} (inside : character ∈ line) : isLineBoundary character = false := by
  obtain ⟨whole, last⟩ := isLineBoundary_of_mem_cutLines text
  rw [lines] at member
  split at member
  · exact whole line member character inside
  · rcases List.mem_append.mp member with before | isLast
    · exact whole line before character inside
    · rw [List.mem_singleton.mp isLast] at inside
      exact last character inside

/-! ### Newlines only -/

theorem eq_newline_of_mem_lineEnds {text : List Char} (plain : HasOnlyNewlines text) :
    ∀ lineEnd ∈ lineEnds text, lineEnd = ['\n'] := by
  fun_induction lineEnds text with
  | case1 => exact fun _ member => absurd member List.not_mem_nil
  | case2 rest _ => exact absurd (plain '\r' List.mem_cons_self (by decide)) (by decide)
  | case3 first rest _ boundary inductionHypothesis =>
    rw [plain first List.mem_cons_self boundary]
    exact List.forall_mem_cons.mpr ⟨rfl, inductionHypothesis fun character member =>
      plain character (List.mem_cons_of_mem _ member)⟩
  | case4 first rest _ _ inductionHypothesis =>
    exact inductionHypothesis fun character member =>
      plain character (List.mem_cons_of_mem _ member)

theorem lineEnds_eq_replicate {text : List Char} (plain : HasOnlyNewlines text) :
    lineEnds text = List.replicate (cutLines text).1.length ['\n'] := by
  rw [← length_lineEnds]
  exact List.eq_replicate_iff.mpr ⟨rfl, eq_newline_of_mem_lineEnds plain⟩

/-- Lines that all end in a newline are joined by newlines, with one more after the last. -/
theorem joinLines_replicate {written : List (List Char)} (some : written ≠ []) :
    joinLines written (List.replicate written.length ['\n']) =
      ['\n'].intercalate written ++ ['\n'] := by
  induction written with
  | nil => exact absurd rfl some
  | cons line rest inductionHypothesis =>
    rw [List.length_cons, List.replicate_succ, joinLines]
    cases rest with
    | nil => simp [joinLines]
    | cons next others =>
      rw [inductionHypothesis (by simp), List.intercalate_cons_cons, List.append_assoc,
        List.append_assoc, List.append_assoc]

/-- Lines of which all but the last end in a newline are joined by newlines. -/
theorem joinLines_replicate_of_length {written : List (List Char)} {count : Nat}
    (unfinished : written.length = count + 1) :
    joinLines written (List.replicate count ['\n']) = ['\n'].intercalate written := by
  induction count generalizing written with
  | zero =>
    obtain ⟨line, rfl⟩ := List.length_eq_one_iff.mp unfinished
    simp [joinLines]
  | succ count inductionHypothesis =>
    obtain ⟨line, rest, rfl⟩ := List.exists_cons_of_length_eq_add_one unfinished
    have fewer := Nat.succ.inj unfinished
    obtain ⟨next, others, rfl⟩ := List.exists_cons_of_length_eq_add_one fewer
    rw [List.replicate_succ, joinLines, inductionHypothesis fewer, List.intercalate_cons_cons,
      List.append_assoc]

/-- A text with newlines only ends in one if its last line is finished. -/
theorem getLast?_eq_newline_iff {text : List Char} (plain : HasOnlyNewlines text) :
    text.getLast? = some '\n' ↔ (cutLines text).2 = [] ∧ (cutLines text).1 ≠ [] := by
  have joined := joinLines_cutLines text
  rw [lineEnds_eq_replicate plain] at joined
  have inside := (isLineBoundary_of_mem_cutLines text).2
  generalize (cutLines text).1 = whole, (cutLines text).2 = last at joined inside
  constructor
  · intro ended
    have finished : last = [] := by
      by_contra unfinished
      rw [← joined, List.getLast?_append_of_ne_nil _ unfinished] at ended
      exact absurd (inside '\n' (List.mem_of_getLast? ended)) (by decide)
    refine ⟨finished, fun none => ?_⟩
    rw [← joined, none, finished] at ended
    exact absurd ended (by simp [joinLines])
  · rintro ⟨rfl, some⟩
    rw [← joined, joinLines_replicate some]
    simp

/-- In a text with newlines only, lines that take the places of its own ones are joined by newlines,
and the end of the text stays. -/
theorem joinLines_eq_intercalate {text : List Char} (plain : HasOnlyNewlines text)
    {written : List (List Char)} (sameLength : written.length = (lines text).length) :
    joinLines written (lineEnds text) =
      ['\n'].intercalate written ++ if text.getLast? == some '\n' then ['\n'] else [] := by
  have ended := getLast?_eq_newline_iff plain
  rw [lineEnds_eq_replicate plain]
  rw [lines] at sameLength
  generalize (cutLines text).1 = whole, (cutLines text).2 = last at ended sameLength
  cases last with
  | nil =>
    rw [if_pos List.isEmpty_nil] at sameLength
    cases whole with
    | nil =>
      obtain rfl := List.length_eq_zero_iff.mp sameLength
      rw [if_neg (by simpa using ended)]
      rfl
    | cons line rest =>
      rw [if_pos (by simpa using ended), ← sameLength]
      exact joinLines_replicate fun none => by simp [none] at sameLength
  | cons first rest =>
    rw [if_neg (by simp)] at sameLength
    rw [if_neg (by simpa using ended), List.append_nil]
    exact joinLines_replicate_of_length (by simpa using sameLength)

theorem mem_intercalate {character : Char} {gap : List Char} {parts : List (List Char)}
    (member : character ∈ gap.intercalate parts) :
    character ∈ gap ∨ ∃ part ∈ parts, character ∈ part := by
  induction parts with
  | nil => exact absurd member List.not_mem_nil
  | cons part rest inductionHypothesis =>
    cases rest with
    | nil => exact Or.inr ⟨part, List.mem_cons_self, by simpa using member⟩
    | cons next others =>
      rw [List.intercalate_cons_cons, List.mem_append, List.mem_append] at member
      rcases member with (own | between) | later
      · exact Or.inr ⟨part, List.mem_cons_self, own⟩
      · exact Or.inl between
      · refine (inductionHypothesis later).imp_right fun found => ?_
        obtain ⟨other, inside, isThere⟩ := found
        exact ⟨other, List.mem_cons_of_mem _ inside, isThere⟩

/-- A text that its lines make when newlines join them has no other line ends. -/
theorem hasOnlyNewlines_of_eq {text last : List Char}
    (plain : ∀ character ∈ last, character = '\n')
    (joined : ['\n'].intercalate (lines text) ++ last = text) : HasOnlyNewlines text := by
  intro character member boundary
  rw [← joined] at member
  rcases List.mem_append.mp member with before | after
  · rcases mem_intercalate before with between | ⟨line, isLine, inside⟩
    · exact List.mem_singleton.mp between
    · rw [isLineBoundary_of_mem_lines isLine inside] at boundary
      exact absurd boundary (by decide)
  · exact plain character after

end OutlineDiagram.Text
