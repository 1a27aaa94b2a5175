/-
This file counts the lines of a label. The scan that cuts a label ends a line as soon
as it may, and no other choice of places gives more line ends. So the lines are more
than the label needs exactly if as many cuts as it needs lines fit, which takes a step
that was rounded down, and there is one line too many then. Only the last line can be
empty, and it is exactly if the last letter of the label makes room for a further cut.
-/

import Mathlib.Tactic.Linarith
import OutlineDiagram.Proofs.Dot.Wrap

namespace OutlineDiagram.Dot

open Text

/-! ### Lines -/

/-- The lines of a label, by its marks. -/
def linesOf : List Mark → List (List Char)
  | [] => [[]]
  | .letter first :: rest => extendFirst first (linesOf rest)
  | .lineEnd :: rest => [] :: linesOf rest

/-- The lines that a reader finds in a quoted label. -/
def readLines (text : List Char) : Option (List (List Char)) := (readMarks text).map linesOf

/-- The lines of a text from a position on, where a line ends at the first letter that allows it
from a multiple of the step on. -/
def linesFrom (step : Nat) : (position multiple : Nat) → List Char → List (List Char)
  | _, _, [] => [[]]
  | position, multiple, first :: rest =>
    if endsLine first && multiple * step ≤ position then
      [first] :: linesFrom step (position + 1) (multiple + 1) rest
    else extendFirst first (linesFrom step (position + 1) multiple rest)

theorem readLines_escapeChar (character : Char) (rest : List Char) :
    readLines (escapeChar character ++ rest) = (readLines rest).map (extendFirst character) := by
  rw [readLines, readMarks_escapeChar, readLines, Option.map_map, Option.map_map]
  rfl

theorem readLines_escape (text : List Char) : readLines (escape text) = some [text] := by
  induction text with
  | nil => rfl
  | cons first rest inductionHypothesis =>
    rw [escape, List.flatMap_cons, readLines_escapeChar, ← escape, inductionHypothesis]
    rfl

theorem readLines_lineEnd (rest : List Char) :
    readLines ('\\' :: 'n' :: rest) = (readLines rest).map ([] :: ·) := by
  rw [readLines, readMarks, readLines, Option.map_map, Option.map_map]
  rfl

/-- A reader finds the lines that the scan made. -/
theorem readLines_wrapFrom (step position multiple : Nat) (text : List Char) :
    readLines (wrapFrom step position multiple text) =
      some (linesFrom step position multiple text) := by
  induction text generalizing position multiple with
  | nil => rfl
  | cons first rest inductionHypothesis =>
    rw [wrapFrom, linesFrom]
    split
    · rw [readLines_escapeChar, readLines_lineEnd, inductionHypothesis]
      rfl
    · rw [readLines_escapeChar, inductionHypothesis]
      rfl

/-! ### Extended lines -/

theorem length_extendFirst {lines : List (List Char)} (notEmpty : lines ≠ []) (first : Char) :
    (extendFirst first lines).length = lines.length := by
  cases lines with
  | nil => exact absurd rfl notEmpty
  | cons line others => rfl

section Scan

variable (step : Nat)

theorem linesFrom_ne_nil (position multiple : Nat) (text : List Char) :
    linesFrom step position multiple text ≠ [] := by
  cases text with
  | nil => exact List.cons_ne_nil _ _
  | cons first rest =>
    rw [linesFrom]
    split
    · exact List.cons_ne_nil _ _
    · unfold extendFirst
      split <;> exact List.cons_ne_nil _ _

/-- The first line holds the first letter. -/
theorem exists_linesFrom_cons (position multiple : Nat) (first : Char) (rest : List Char) :
    ∃ line others, linesFrom step position multiple (first :: rest) = (first :: line) :: others := by
  rw [linesFrom]
  split
  · exact ⟨[], _, rfl⟩
  · unfold extendFirst
    split
    · exact ⟨[], [], rfl⟩
    · exact ⟨_, _, rfl⟩

theorem flatten_linesFrom (position multiple : Nat) (text : List Char) :
    (linesFrom step position multiple text).flatten = text := by
  induction text generalizing position multiple with
  | nil => rfl
  | cons first rest inductionHypothesis =>
    rw [linesFrom]
    split
    · rw [List.flatten_cons, inductionHypothesis, List.singleton_append]
    · obtain ⟨line, others, lines⟩ :=
        List.exists_cons_of_ne_nil (linesFrom_ne_nil step (position + 1) multiple rest)
      have whole := inductionHypothesis (position + 1) multiple
      rw [lines, List.flatten_cons] at whole
      rw [lines, extendFirst, List.flatten_cons, List.cons_append, whole]

/-- No line but the last one is empty. -/
theorem ne_nil_of_mem_dropLast_linesFrom {position multiple : Nat} {text line : List Char}
    (member : line ∈ (linesFrom step position multiple text).dropLast) : line ≠ [] := by
  induction text generalizing position multiple with
  | nil => exact absurd member List.not_mem_nil
  | cons first rest inductionHypothesis =>
    rw [linesFrom] at member
    split at member
    · rw [List.dropLast_cons_of_ne_nil (linesFrom_ne_nil step _ _ rest)] at member
      rcases List.mem_cons.mp member with rfl | later
      · exact List.cons_ne_nil _ _
      · exact inductionHypothesis later
    · obtain ⟨head, others, lines⟩ :=
        List.exists_cons_of_ne_nil (linesFrom_ne_nil step (position + 1) multiple rest)
      rw [lines, extendFirst] at member
      cases others with
      | nil => exact absurd member List.not_mem_nil
      | cons next further =>
        rw [List.dropLast_cons_of_ne_nil (List.cons_ne_nil _ _)] at member
        rcases List.mem_cons.mp member with rfl | later
        · exact List.cons_ne_nil _ _
        · have inRest : line ∈ (linesFrom step (position + 1) multiple rest).dropLast := by
            rw [lines, List.dropLast_cons_of_ne_nil (List.cons_ne_nil _ _)]
            exact List.mem_cons_of_mem _ later
          exact inductionHypothesis inRest

/-- Some line is empty exactly if the last letter ends a further line. -/
theorem nil_mem_linesFrom_concat_iff (position multiple : Nat) (text : List Char) (last : Char) :
    [] ∈ linesFrom step position multiple (text ++ [last]) ↔
      (linesFrom step position multiple text).length <
        (linesFrom step position multiple (text ++ [last])).length := by
  induction text generalizing position multiple with
  | nil =>
    rw [List.nil_append, linesFrom, linesFrom]
    split <;> simp [linesFrom, extendFirst]
  | cons first rest inductionHypothesis =>
    rw [List.cons_append, linesFrom, linesFrom]
    split
    · rw [List.mem_cons, inductionHypothesis, List.length_cons, List.length_cons,
        Nat.succ_lt_succ_iff]
      exact or_iff_right (by simp)
    · rw [length_extendFirst (linesFrom_ne_nil _ _ _ _),
        length_extendFirst (linesFrom_ne_nil _ _ _ _), ← inductionHypothesis]
      -- The rest is not empty, so its first line was not empty before the letter came to it.
      obtain ⟨head, others, spelled⟩ := List.exists_cons_of_ne_nil
        (List.append_ne_nil_of_right_ne_nil rest (List.cons_ne_nil last []))
      obtain ⟨line, later, lines⟩ :=
        exists_linesFrom_cons step (position + 1) multiple head others
      rw [spelled, lines, extendFirst]
      simp

end Scan

/-! ### Cuts -/

/-- A text may be cut behind the letters at some places: their order is kept, each letter may end a
line, and the place with a number is not before that multiple of the step. The number of the
first place is given. -/
structure Cuts (step number : Nat) (text : List Char) (places : List Nat) : Prop where
  /-- One place comes after the other. -/
  increasing : places.Pairwise (· < ·)
  /-- At each place stands a letter that may end a line. -/
  ends : ∀ place ∈ places, ∃ letter, text[place]? = some letter ∧ endsLine letter = true
  /-- No place is too early. -/
  late : ∀ index (inside : index < places.length), (number + index) * step ≤ places[index]

/-- The text may be cut at some number of places. -/
def CanCut (step count : Nat) (text : List Char) : Prop :=
  ∃ places, places.length = count ∧ Cuts step 1 text places

section Places

variable {step number place : Nat} {text : List Char} {places : List Nat}

theorem cuts_cons_iff :
    Cuts step number text (place :: places) ↔
      (∃ letter, text[place]? = some letter ∧ endsLine letter = true) ∧ number * step ≤ place ∧
        (∀ later ∈ places, place < later) ∧ Cuts step (number + 1) text places := by
  constructor
  · rintro ⟨increasing, ends, late⟩
    obtain ⟨apart, rest⟩ := List.pairwise_cons.mp increasing
    obtain ⟨own, others⟩ := List.forall_mem_cons.mp ends
    refine ⟨own, late 0 (Nat.succ_pos _), apart, rest, others, fun index inside => ?_⟩
    rw [Nat.add_right_comm, Nat.add_assoc]
    exact late (index + 1) (Nat.succ_lt_succ inside)
  · rintro ⟨own, first, apart, increasing, ends, late⟩
    refine ⟨List.pairwise_cons.mpr ⟨apart, increasing⟩, List.forall_mem_cons.mpr ⟨own, ends⟩, ?_⟩
    rintro (- | index) inside
    · exact first
    · have bound := late index (Nat.lt_of_succ_lt_succ inside)
      rwa [Nat.add_assoc, Nat.add_comm 1 index] at bound

theorem Cuts.take (cuts : Cuts step number text places) (count : Nat) :
    Cuts step number text (places.take count) where
  increasing := cuts.increasing.sublist (List.take_sublist _ _)
  ends place member := cuts.ends place (List.mem_of_mem_take member)
  late index inside := by
    rw [List.getElem_take]
    exact cuts.late index _

/-- No choice of places gives more line ends than the scan. -/
theorem Cuts.length_lt_length_linesFrom {before rest : List Char}
    (cuts : Cuts step number (before ++ rest) places)
    (further : ∀ place ∈ places, before.length ≤ place) :
    places.length < (linesFrom step before.length number rest).length := by
  induction rest generalizing before number places with
  | nil =>
    cases places with
    | nil => exact Nat.zero_lt_one
    | cons place others =>
      obtain ⟨letter, found, -⟩ := cuts.ends place List.mem_cons_self
      obtain ⟨inside, -⟩ := List.getElem?_eq_some_iff.mp found
      rw [List.append_nil] at inside
      exact absurd inside (Nat.not_lt.mpr (further place List.mem_cons_self))
  | cons first rest inductionHypothesis =>
    have regroup : before ++ first :: rest = (before ++ [first]) ++ rest := by simp
    have length : (before ++ [first]).length = before.length + 1 := List.length_append
    rw [linesFrom]
    split
    · -- The scan cuts here, so the first place is here or later, and it is made up for.
      rw [List.length_cons]
      cases places with
      | nil => exact Nat.succ_pos _
      | cons place others =>
        obtain ⟨-, -, apart, later⟩ := cuts_cons_iff.mp cuts
        have bound := inductionHypothesis (regroup ▸ later) fun other member => by
          rw [length]
          exact (further place List.mem_cons_self).trans_lt (apart other member)
        rw [length] at bound
        exact Nat.succ_lt_succ bound
    · next noCut =>
      rw [length_extendFirst (linesFrom_ne_nil _ _ _ _), ← length]
      refine inductionHypothesis (regroup ▸ cuts) fun place member => ?_
      rw [length]
      refine (further place member).lt_of_ne fun here => noCut ?_
      obtain ⟨letter, found, isEnder⟩ := cuts.ends place member
      obtain ⟨index, inside, same⟩ := List.getElem_of_mem member
      have late := cuts.late index inside
      rw [← here, List.getElem?_append_right (Nat.le_refl _), Nat.sub_self] at found
      obtain rfl := Option.some.inj found
      rw [same, ← here, Nat.add_mul] at late
      rw [Bool.and_eq_true, decide_eq_true_iff]
      exact ⟨isEnder, (Nat.le_add_right _ _).trans late⟩

/-- The scan cuts at places where the text may be cut. -/
theorem exists_cuts (step number : Nat) (before rest : List Char) :
    ∃ places, Cuts step number (before ++ rest) places ∧
      (∀ place ∈ places, before.length ≤ place) ∧
      places.length + 1 = (linesFrom step before.length number rest).length := by
  induction rest generalizing before number with
  | nil => exact ⟨[], ⟨.nil, by simp, by simp⟩, by simp, rfl⟩
  | cons first rest inductionHypothesis =>
    have regroup : before ++ first :: rest = (before ++ [first]) ++ rest := by simp
    have length : (before ++ [first]).length = before.length + 1 := List.length_append
    rw [linesFrom]
    split
    · next cut =>
      obtain ⟨places, cuts, further, count⟩ := inductionHypothesis (number + 1) (before ++ [first])
      rw [Bool.and_eq_true, decide_eq_true_iff] at cut
      rw [← regroup] at cuts
      rw [length] at further count
      refine ⟨before.length :: places, cuts_cons_iff.mpr ⟨⟨first, ?_, cut.1⟩, cut.2, further, cuts⟩,
        List.forall_mem_cons.mpr ⟨Nat.le_refl _, fun place member => ?_⟩, ?_⟩
      · rw [List.getElem?_append_right (Nat.le_refl _), Nat.sub_self]
        rfl
      · exact Nat.le_of_succ_le (further place member)
      · rw [List.length_cons, List.length_cons, count]
    · obtain ⟨places, cuts, further, count⟩ := inductionHypothesis number (before ++ [first])
      rw [← regroup] at cuts
      rw [length] at further count
      refine ⟨places, cuts, fun place member => Nat.le_of_succ_le (further place member), ?_⟩
      rw [length_extendFirst (linesFrom_ne_nil _ _ _ _), count]

end Places

/-- The scan makes one line more than the greatest number of places where the text may be cut. -/
theorem canCut_iff {step count : Nat} {text : List Char} :
    CanCut step count text ↔ count < (linesFrom step 0 1 text).length := by
  constructor
  · rintro ⟨places, rfl, cuts⟩
    have whole : Cuts step 1 ([] ++ text) places := cuts
    exact whole.length_lt_length_linesFrom fun _ _ => Nat.zero_le _
  · intro less
    obtain ⟨places, cuts, -, length⟩ := exists_cuts step 1 [] text
    rw [List.length_nil] at length
    refine ⟨places.take count, ?_, cuts.take count⟩
    rw [List.length_take]
    omega

instance (step count : Nat) (text : List Char) : Decidable (CanCut step count text) :=
  decidable_of_iff _ canCut_iff.symm

/-- The last cut is behind a letter that the text has. -/
theorem mul_lt_length_of_canCut {step count : Nat} {text : List Char} (positive : 0 < count)
    (can : CanCut step count text) : count * step < text.length := by
  obtain ⟨places, rfl, cuts⟩ := can
  have inside : places.length - 1 < places.length := Nat.sub_lt positive Nat.one_pos
  have late := cuts.late _ inside
  obtain ⟨letter, found, -⟩ := cuts.ends _ (List.getElem_mem inside)
  obtain ⟨within, -⟩ := List.getElem?_eq_some_iff.mp found
  rw [Nat.add_sub_cancel' positive] at late
  exact late.trans_lt within

/-! ### The step -/

/-- The number of letters after which a line of a text with some length should end. -/
def lineStep (length : Nat) (width : Int) : Nat :=
  roundQuotient length (lineCount length width).toNat

/-- A text fits as many lines as it needs, and it needs the last of them. -/
theorem lineCount_bounds {width : Int} (positive : 0 < width) (length : Nat) :
    (length : Int) ≤ lineCount length width * width ∧
      (lineCount length width - 1) * width < length := by
  rw [lineCount, Int.fdiv_eq_ediv_of_nonneg _ positive.le]
  have low := Int.ediv_mul_le (-(length : Int)) positive.ne'
  have high := Int.lt_ediv_add_one_mul_self (-(length : Int)) positive
  constructor <;> linarith

/-- Where the step is rounded down, the letters that are left over are no more than one step. -/
theorem mod_le_div_of_half {length count : Nat} {width : Int} (several : 1 < count)
    (fits : (length : Int) ≤ count * width) (needed : (count - 1 : Int) * width < length)
    (half : 2 * (length % count) ≤ count) : length % count ≤ length / count := by
  have split : (count : Int) * ↑(length / count) + ↑(length % count) = length := by
    exact_mod_cast Nat.div_add_mod length count
  generalize length / count = quotient at split ⊢
  generalize length % count = left at split half ⊢
  by_contra! more
  -- Letters are left over, so the step is narrower than the width.
  have shorter : (count : Int) * quotient < count * width := by omega
  have wide : (quotient : Int) + 1 ≤ width :=
    lt_of_mul_lt_mul_left shorter (Int.natCast_nonneg count)
  have full : (count - 1 : Int) * (quotient + 1) ≤ (count - 1) * width :=
    mul_le_mul_of_nonneg_left wide (by omega)
  linarith

/-- Even where the step was rounded down, one step more than there are lines is long enough. -/
theorem length_le_mul_lineStep {width : Int} (positive : 0 < width) {length : Nat}
    (several : 1 < lineCount length width) :
    length ≤ ((lineCount length width).toNat + 1) * lineStep length width := by
  obtain ⟨fits, needed⟩ := lineCount_bounds positive length
  obtain ⟨count, same⟩ := Int.eq_ofNat_of_zero_le (Int.zero_lt_one.trans several).le
  rw [lineStep, same, Int.toNat_natCast]
  rw [same] at fits needed several
  have split := Nat.div_add_mod length count
  rcases roundQuotient_cases length count with ⟨rounded, half⟩ | ⟨rounded, -⟩
  · have left := mod_le_div_of_half (Int.ofNat_lt.mp several) fits needed half
    rw [rounded, Nat.add_mul, Nat.one_mul]
    omega
  · have less : length % count < count := Nat.mod_lt _ (by omega)
    rw [rounded, Nat.add_mul, Nat.one_mul, Nat.mul_add, Nat.mul_one]
    omega

/-- The scan makes at most one line more than a text needs. -/
theorem length_linesFrom_le {width : Int} (positive : 0 < width) {text : List Char}
    (several : 1 < lineCount text.length width) :
    (linesFrom (lineStep text.length width) 0 1 text).length ≤
      (lineCount text.length width).toNat + 1 := by
  by_contra! more
  have last := mul_lt_length_of_canCut (Nat.succ_pos _) (canCut_iff.mpr more)
  exact absurd last (Nat.not_lt.mpr (length_le_mul_lineStep positive several))

/-! ### Labels -/

/-- The lines that a reader finds in a label. -/
theorem readLines_wrap (width : Int) (label : List Char) :
    readLines (wrap width label) = some
      (if lineCount (trim label).length width ≤ 1 then [trim label]
        else linesFrom (lineStep (trim label).length width) 0 1 (trim label)) := by
  rw [wrap]
  split
  · exact readLines_escape _
  · exact readLines_wrapFrom _ _ _ _

/-- Some line of a text is empty exactly if without its last letter the text can be cut fewer
times. -/
theorem nil_not_mem_linesFrom_iff {step : Nat} {text : List Char} (notEmpty : text ≠ []) :
    [] ∉ linesFrom step 0 1 text ↔
      ∀ count, CanCut step count text → CanCut step count text.dropLast := by
  have spelled := List.dropLast_append_getLast notEmpty
  have ends := nil_mem_linesFrom_concat_iff step 0 1 text.dropLast (text.getLast notEmpty)
  rw [spelled] at ends
  simp only [canCut_iff]
  rw [ends, Nat.not_lt]
  exact ⟨fun atMost _ less => less.trans_le atMost, fun all => Nat.le_of_not_lt fun less =>
    absurd (all _ less) (Nat.lt_irrefl _)⟩

/-- At every width above zero a label can be cut into lines, which hold its letters without the
blanks around them. They are no more than the label needs exactly if it needs one only or cannot be
cut as many times as it needs lines, and there is never more than one too many. None of them is
empty unless the label is, exactly if it needs one only or its last letter makes room for no
further cut; and only the last one can be empty. -/
theorem readLines_wrap? {width : Int} (positive : 0 < width) (label : List Char) :
    let text := trim label
    let count := lineCount text.length width
    let step := lineStep text.length width
    ∃ written lines, wrap? width label = .ok written ∧ readLines written = some lines ∧
      lines.flatten = text ∧
      ((lines.length : Int) ≤ max 1 count ↔ count ≤ 1 ∨ ¬ CanCut step count.toNat text) ∧
      (lines.length : Int) ≤ max 1 count + 1 ∧
      ((∀ line ∈ lines, line = [] → text = []) ↔
        count ≤ 1 ∨ ∀ cuts, CanCut step cuts text → CanCut step cuts text.dropLast) ∧
      ∀ line ∈ lines.dropLast, line ≠ [] := by
  intro text count step
  have written : wrap? width label = .ok (wrap width label) := if_neg positive.ne'
  by_cases single : count ≤ 1
  · refine ⟨_, [text], written, (readLines_wrap width label).trans (by rw [if_pos single]), ?_, ?_,
      ?_, ?_, ?_⟩
    · exact List.flatten_singleton
    · exact iff_of_true (le_max_left _ _) (Or.inl single)
    · exact (le_max_left 1 count).trans (by omega)
    · exact iff_of_true (fun line member empty => (List.mem_singleton.mp member).symm.trans empty)
        (Or.inl single)
    · exact fun line member => absurd member List.not_mem_nil
  · have several : 1 < count := not_le.mp single
    have same : (count.toNat : Int) = count := Int.toNat_of_nonneg (Int.zero_lt_one.trans several).le
    have notEmpty : text ≠ [] := fun empty => single (by simp [count, empty, lineCount])
    refine ⟨_, linesFrom step 0 1 text, written,
      (readLines_wrap width label).trans (by rw [if_neg single]), flatten_linesFrom step 0 1 text,
      ?_, ?_, ?_, fun line => ne_nil_of_mem_dropLast_linesFrom step⟩
    · rw [or_iff_right single, canCut_iff, max_eq_right several.le, Nat.not_lt]
      omega
    · have bound : (linesFrom step 0 1 text).length ≤ count.toNat + 1 :=
        length_linesFrom_le positive several
      rw [max_eq_right several.le]
      omega
    · rw [or_iff_right single, ← nil_not_mem_linesFrom_iff notEmpty]
      exact ⟨fun only empty => notEmpty (only [] empty rfl), fun none line member empty =>
        absurd (empty ▸ member) none⟩

/-- A label that needs three lines and ends with a letter that may end a line, but too early for a
third cut. -/
theorem readLines_wrap?_dashes :
    (0 : Int) < 10 ∧ ∃ written lines, wrap? 10 "alpha-beta-gamma-delta-".toList = .ok written ∧
      readLines written = some lines ∧ lines.length ≤ 3 ∧ [] ∉ lines := by
  obtain ⟨written, lines, cut, read, -, few, -, full, -⟩ :=
    readLines_wrap? (show (0 : Int) < 10 by decide) "alpha-beta-gamma-delta-".toList
  have count : lineCount (trim "alpha-beta-gamma-delta-".toList).length 10 = 3 := by decide +kernel
  rw [count] at few full
  refine ⟨by decide, written, lines, cut, read, ?_, fun empty => ?_⟩
  · exact Int.ofNat_le.mp (few.mpr (Or.inr (by decide +kernel)))
  · refine absurd (full.mpr (Or.inr fun cuts can => ?_) [] empty rfl) (by decide +kernel)
    exact canCut_iff.mpr ((canCut_iff.mp can).trans_le (by decide +kernel))

/-- A label that ends with a letter that may end a line is cut behind it, and then it has a third line
where it needs two. -/
theorem length_lines_wrap?_dash :
    ∃ written lines, wrap? 5 "aaaa-aaa-".toList = .ok written ∧ readLines written = some lines ∧
      lines = ["aaaa-".toList, "aaa-".toList, []] ∧
      ¬ (lines.length : Int) ≤ max 1 (lineCount (trim "aaaa-aaa-".toList).length 5) ∧
      ¬ ∀ line ∈ lines, line = [] → trim "aaaa-aaa-".toList = [] := by
  refine ⟨"aaaa-\\naaa-\\n".toList, ["aaaa-".toList, "aaa-".toList, []], ?_, ?_, rfl, ?_, ?_⟩
  all_goals decide +kernel

end OutlineDiagram.Dot
