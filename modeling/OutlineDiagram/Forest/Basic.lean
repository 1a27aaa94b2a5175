/-
This file holds ordered forests: the first tree's root, the forest below that
root, and the trees after it. With one constructor for a tree and the trees beside
it, every statement about a forest is one induction with a hypothesis for what is
below and one for what comes after.
-/

namespace OutlineDiagram

/-- An ordered forest of values. -/
inductive Forest (α : Type) where
  /-- The forest without trees. -/
  | nil
  /-- A tree with its root value and the forest below it, and the trees after it. -/
  | cons (value : α) (below after : Forest α)
  deriving DecidableEq, Repr, Inhabited

namespace Forest

variable {α β : Type}

/-! ### Views -/

/-- The values in pre-order: a root before what is below it, and that before what comes after. -/
def toList : Forest α → List α
  | nil => []
  | cons value below after => value :: (below.toList ++ after.toList)

/-- The number of values. -/
def size : Forest α → Nat
  | nil => 0
  | cons _ below after => below.size + 1 + after.size

/-- The forest has no tree. -/
def isEmpty : Forest α → Bool
  | nil => true
  | cons .. => false

/-- The trees, each as its root value and the forest below it. -/
def trees : Forest α → List (α × Forest α)
  | nil => []
  | cons value below after => (value, below) :: after.trees

/-- The forest of a list of trees. -/
def ofTrees : List (α × Forest α) → Forest α
  | [] => nil
  | tree :: others => cons tree.1 tree.2 (ofTrees others)

/-- The root values, in order. -/
def roots (forest : Forest α) : List α := forest.trees.map Prod.fst

/-- A value met on a walk, with its level and the forest below it. -/
structure Visit (α : Type) where
  /-- The number of values above it. -/
  level : Nat
  /-- The value. -/
  value : α
  /-- What is below it. -/
  below : Forest α
  deriving DecidableEq, Repr

/-- The visits of a walk in pre-order whose first trees are at a given level. -/
def visitsFrom (level : Nat) : Forest α → List (Visit α)
  | nil => []
  | cons value below after =>
    ⟨level, value, below⟩ :: (below.visitsFrom (level + 1) ++ after.visitsFrom level)

/-- The visits of a walk in pre-order. -/
def visits (forest : Forest α) : List (Visit α) := forest.visitsFrom 0

theorem isEmpty_eq (forest : Forest α) : forest.isEmpty = forest.toList.isEmpty := by
  cases forest <;> rfl

@[simp] theorem length_toList (forest : Forest α) : forest.toList.length = forest.size := by
  induction forest with
  | nil => rfl
  | cons value below after belowHypothesis afterHypothesis =>
    simp only [toList, size, List.length_cons, List.length_append, belowHypothesis,
      afterHypothesis]
    omega

@[simp] theorem ofTrees_trees (forest : Forest α) : ofTrees forest.trees = forest := by
  induction forest with
  | nil => rfl
  | cons value below after _ afterHypothesis => simp [trees, ofTrees, afterHypothesis]

@[simp] theorem trees_ofTrees (trees : List (α × Forest α)) : (ofTrees trees).trees = trees := by
  induction trees with
  | nil => rfl
  | cons tree others inductionHypothesis => simp [ofTrees, Forest.trees, inductionHypothesis]

/-- The values of the visits are the values in pre-order. -/
theorem map_value_visitsFrom (level : Nat) (forest : Forest α) :
    (forest.visitsFrom level).map Visit.value = forest.toList := by
  induction forest generalizing level with
  | nil => rfl
  | cons value below after belowHypothesis afterHypothesis =>
    simp [visitsFrom, toList, belowHypothesis, afterHypothesis]

/-! ### Change -/

/-- The forest with a function applied to every value. -/
def map (change : α → β) : Forest α → Forest β
  | nil => nil
  | cons value below after => cons (change value) (below.map change) (after.map change)

@[simp] theorem toList_map (change : α → β) (forest : Forest α) :
    (forest.map change).toList = forest.toList.map change := by
  induction forest with
  | nil => rfl
  | cons value below after belowHypothesis afterHypothesis =>
    simp [map, toList, belowHypothesis, afterHypothesis]

theorem size_map (change : α → β) (forest : Forest α) : (forest.map change).size = forest.size := by
  rw [← length_toList, ← length_toList, toList_map, List.length_map]

theorem isEmpty_map (change : α → β) (forest : Forest α) :
    (forest.map change).isEmpty = forest.isEmpty := by
  cases forest <;> rfl

theorem trees_map (change : α → β) (forest : Forest α) :
    (forest.map change).trees = forest.trees.map fun tree => (change tree.1, tree.2.map change) := by
  induction forest with
  | nil => rfl
  | cons value below after _ afterHypothesis =>
    rw [map, trees, trees, List.map_cons, afterHypothesis]

/-- A function on the values of a forest counts at those values only. -/
theorem map_congr {change other : α → β} {forest : Forest α}
    (same : ∀ value ∈ forest.toList, change value = other value) :
    forest.map change = forest.map other := by
  induction forest with
  | nil => rfl
  | cons value below after belowHypothesis afterHypothesis =>
    rw [toList, List.forall_mem_cons, List.forall_mem_append] at same
    rw [map, map, same.1, belowHypothesis same.2.1, afterHypothesis same.2.2]

theorem map_id (forest : Forest α) : forest.map id = forest := by
  induction forest with
  | nil => rfl
  | cons value below after belowHypothesis afterHypothesis =>
    rw [map, belowHypothesis, afterHypothesis, id]

/-- A function that keeps the values of a forest keeps the forest. -/
theorem map_eq_self {change : α → α} {forest : Forest α}
    (fixed : ∀ value ∈ forest.toList, change value = value) : forest.map change = forest :=
  (map_congr fixed).trans (map_id forest)

/-- The last value in pre-order that passes a test, with the forest below it. -/
def findLast? (test : α → Bool) : Forest α → Option (α × Forest α)
  | nil => none
  | cons value below after =>
    (after.findLast? test).or <|
      (below.findLast? test).or <| if test value then some (value, below) else none

/-- The forest with the last value in pre-order that passes a test, and what is below it,
changed; none where no value passes. -/
def modifyLast? (test : α → Bool) (change : α × Forest α → α × Forest α) :
    Forest α → Option (Forest α)
  | nil => none
  | cons value below after =>
    ((after.modifyLast? test change).map fun changed => cons value below changed).or <|
      ((below.modifyLast? test change).map fun changed => cons value changed after).or <|
        if test value then
          let changed := change (value, below)
          some (cons changed.1 changed.2 after)
        else none

end Forest

end OutlineDiagram
