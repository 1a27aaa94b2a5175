/-
This file nests a list of values by their depth and proves how that splits the list.
A value is put in front of the forest of the values after it and takes the leading
trees that are deeper than itself below it. What lies below a value is then the run
of deeper values right after it, and what comes after the value's tree is the rest
of the list, so every statement about a nested list is an induction over these two
shorter lists.
-/

import OutlineDiagram.Forest.Basic

namespace OutlineDiagram.Forest

/-! ### Nesting -/

section Nesting

variable {α : Type}

/-- The leading trees whose roots are deeper than a level. -/
def takeDeeper (depth : α → Int) (level : Int) : Forest α → Forest α
  | nil => nil
  | cons value below after =>
    if level < depth value then cons value below (after.takeDeeper depth level) else nil

/-- The trees from the first root on that is not deeper than a level. -/
def dropDeeper (depth : α → Int) (level : Int) : Forest α → Forest α
  | nil => nil
  | cons value below after =>
    if level < depth value then after.dropDeeper depth level else cons value below after

/-- The forest with one more value before it, which takes the leading deeper trees below it. -/
def place (depth : α → Int) (value : α) (forest : Forest α) : Forest α :=
  cons value (forest.takeDeeper depth (depth value)) (forest.dropDeeper depth (depth value))

/-- The forest in which each value lies below the nearest earlier value of smaller depth. -/
def nest (depth : α → Int) (values : List α) : Forest α := values.foldr (place depth) nil

/-- Taking and dropping the leading deeper trees loses nothing. -/
theorem toList_takeDeeper_append (depth : α → Int) (level : Int) (forest : Forest α) :
    (forest.takeDeeper depth level).toList ++ (forest.dropDeeper depth level).toList =
      forest.toList := by
  induction forest with
  | nil => rfl
  | cons value below after _ afterHypothesis =>
    rw [takeDeeper, dropDeeper]
    split
    · simp [toList, ← afterHypothesis]
    · simp [toList]

/-- The values of a nested list in pre-order are the list. -/
@[simp] theorem toList_nest (depth : α → Int) (values : List α) :
    (nest depth values).toList = values := by
  induction values with
  | nil => rfl
  | cons value others inductionHypothesis =>
    show (place depth value (nest depth others)).toList = value :: others
    rw [place, toList, toList_takeDeeper_append, inductionHypothesis]

end Nesting

/-! ### Runs of a list -/

section Runs

variable {α : Type} {wide narrow : α → Bool}

theorem takeWhile_takeWhile (within : ∀ value, narrow value = true → wide value = true)
    (values : List α) : (values.takeWhile wide).takeWhile narrow = values.takeWhile narrow := by
  induction values with
  | nil => rfl
  | cons first rest inductionHypothesis =>
    by_cases isNarrow : narrow first = true
    · rw [List.takeWhile_cons_of_pos (within first isNarrow), List.takeWhile_cons_of_pos isNarrow,
        List.takeWhile_cons_of_pos isNarrow, inductionHypothesis]
    · rw [List.takeWhile_cons_of_neg isNarrow]
      cases isWide : wide first with
      | true => rw [List.takeWhile_cons_of_pos isWide, List.takeWhile_cons_of_neg isNarrow]
      | false => rw [List.takeWhile_cons_of_neg (by simp [isWide]), List.takeWhile_nil]

theorem dropWhile_dropWhile (within : ∀ value, narrow value = true → wide value = true)
    (values : List α) : (values.dropWhile narrow).dropWhile wide = values.dropWhile wide := by
  induction values with
  | nil => rfl
  | cons first rest inductionHypothesis =>
    by_cases isNarrow : narrow first = true
    · rw [List.dropWhile_cons_of_pos isNarrow, List.dropWhile_cons_of_pos (within first isNarrow),
        inductionHypothesis]
    · rw [List.dropWhile_cons_of_neg isNarrow]

theorem dropWhile_takeWhile (within : ∀ value, narrow value = true → wide value = true)
    (values : List α) :
    (values.takeWhile wide).dropWhile narrow = (values.dropWhile narrow).takeWhile wide := by
  induction values with
  | nil => rfl
  | cons first rest inductionHypothesis =>
    by_cases isNarrow : narrow first = true
    · rw [List.takeWhile_cons_of_pos (within first isNarrow), List.dropWhile_cons_of_pos isNarrow,
        List.dropWhile_cons_of_pos isNarrow, inductionHypothesis]
    · rw [List.dropWhile_cons_of_neg isNarrow]
      cases isWide : wide first with
      | true => rw [List.takeWhile_cons_of_pos isWide, List.dropWhile_cons_of_neg isNarrow]
      | false => rw [List.takeWhile_cons_of_neg (by simp [isWide]), List.dropWhile_nil]

end Runs

/-! ### Nested lists -/

variable {α : Type} (depth : α → Int)

/-- A value is deeper than a level. -/
def isDeeper (level : Int) (value : α) : Bool := level < depth value

theorem isDeeper_of_isDeeper {level higher : Int} (above : higher < level) (value : α)
    (deeper : isDeeper depth level value = true) : isDeeper depth higher value = true := by
  simp only [isDeeper, decide_eq_true_eq] at deeper ⊢
  omega

/-- The leading deeper trees of a nested list are its leading deeper run, nested, and the trees
after them are the rest of the list, nested. -/
theorem takeDeeper_dropDeeper_nest (level : Int) (values : List α) :
    (nest depth values).takeDeeper depth level =
        nest depth (values.takeWhile (isDeeper depth level)) ∧
      (nest depth values).dropDeeper depth level =
        nest depth (values.dropWhile (isDeeper depth level)) := by
  induction known : values.length using Nat.strongRecOn generalizing values level with
  | _ length inductionHypothesis =>
    cases values with
    | nil => exact ⟨rfl, rfl⟩
    | cons value rest =>
      subst known
      have shorter : ∀ others : List α, others.length ≤ rest.length → ∀ level,
          (nest depth others).takeDeeper depth level =
              nest depth (others.takeWhile (isDeeper depth level)) ∧
            (nest depth others).dropDeeper depth level =
              nest depth (others.dropWhile (isDeeper depth level)) :=
        fun others bound level =>
          inductionHypothesis others.length (Nat.lt_succ_of_le bound) level others rfl
      have split : ∀ others : List α, others.length ≤ rest.length →
          nest depth (value :: others) =
            cons value (nest depth (others.takeWhile (isDeeper depth (depth value))))
              (nest depth (others.dropWhile (isDeeper depth (depth value)))) := by
        intro others bound
        obtain ⟨taken, dropped⟩ := shorter others bound (depth value)
        rw [← taken, ← dropped]
        rfl
      rw [split rest (Nat.le_refl _), takeDeeper, dropDeeper]
      by_cases deeper : level < depth value
      · have isDeep : isDeeper depth level value = true := by simpa [isDeeper] using deeper
        have within := isDeeper_of_isDeeper depth deeper
        obtain ⟨taken, dropped⟩ := shorter (rest.dropWhile (isDeeper depth (depth value)))
          (List.dropWhile_sublist _).length_le level
        rw [if_pos deeper, if_pos deeper, List.takeWhile_cons_of_pos isDeep,
          List.dropWhile_cons_of_pos isDeep, taken, dropped,
          split _ (List.takeWhile_sublist _).length_le, takeWhile_takeWhile within,
          dropWhile_takeWhile within, dropWhile_dropWhile within]
        exact ⟨rfl, rfl⟩
      · have notDeep : ¬ isDeeper depth level value = true := by simpa [isDeeper] using deeper
        rw [if_neg deeper, if_neg deeper, List.takeWhile_cons_of_neg notDeep,
          List.dropWhile_cons_of_neg notDeep, split rest (Nat.le_refl _)]
        exact ⟨rfl, rfl⟩

/-- Below the first value of a nested list lies the deeper run after it. -/
theorem nest_cons (value : α) (rest : List α) :
    nest depth (value :: rest) =
      cons value (nest depth (rest.takeWhile (isDeeper depth (depth value))))
        (nest depth (rest.dropWhile (isDeeper depth (depth value)))) := by
  obtain ⟨taken, dropped⟩ := takeDeeper_dropDeeper_nest depth (depth value) rest
  rw [← taken, ← dropped]
  rfl

end OutlineDiagram.Forest
