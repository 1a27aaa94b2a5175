/-
This file proves that a nested list grows along its last trees. One more value at the
end of the list comes below the last value that is less deep than itself among those
on the way along the last trees. Where the levels of the forest are the depths of its
values, that is the value at the address on this way which has as many members as the
depth of the new value says.
-/

import OutlineDiagram.Forest.Address
import OutlineDiagram.Proofs.Forest.Nest

namespace OutlineDiagram.Forest

variable {α β : Type}

/-! ### One more value in a nested list -/

/-- The forest with a value added along its last trees: below the last root where that is less
deep, else beside it. -/
def attach (depth : α → Int) (value : α) : Forest α → Forest α
  | nil => cons value nil nil
  | cons first below after =>
    if after.isEmpty then
      if depth first < depth value then cons first (below.attach depth value) after
      else cons first below (cons value nil nil)
    else cons first below (after.attach depth value)

theorem isEmpty_nest (depth : α → Int) (values : List α) :
    (nest depth values).isEmpty = values.isEmpty := by
  rw [isEmpty_eq, toList_nest]

theorem nest_append_singleton (depth : α → Int) (values : List α) (value : α) :
    nest depth (values ++ [value]) = (nest depth values).attach depth value := by
  induction known : values.length using Nat.strongRecOn generalizing values with
  | _ length inductionHypothesis =>
    cases values with
    | nil => rfl
    | cons first rest =>
      subst known
      rw [List.cons_append, nest_cons, nest_cons, attach, isEmpty_nest, List.dropWhile_append]
      have parts := List.takeWhile_append_dropWhile (p := isDeeper depth (depth first)) (l := rest)
      by_cases whole : rest.dropWhile (isDeeper depth (depth first)) = []
      · -- All other values lie below the first one, so the new one does unless it is less deep.
        rw [whole, List.append_nil] at parts
        rw [List.takeWhile_append, parts, if_pos rfl, whole, List.isEmpty_nil, if_pos rfl, if_pos rfl]
        by_cases deeper : depth first < depth value
        · have isDeep : isDeeper depth (depth first) value = true := decide_eq_true deeper
          rw [if_pos deeper, List.takeWhile_cons_of_pos isDeep, List.dropWhile_cons_of_pos isDeep,
            List.takeWhile_nil, List.dropWhile_nil,
            inductionHypothesis rest.length (Nat.lt_succ_self _) rest rfl]
        · have notDeep : ¬ isDeeper depth (depth first) value = true := by
            simpa [isDeeper] using deeper
          rw [if_neg deeper, List.takeWhile_cons_of_neg notDeep,
            List.dropWhile_cons_of_neg notDeep, List.append_nil]
          rfl
      · have shorter := List.length_pos_iff.mpr whole
        have lengths := congrArg List.length parts
        rw [List.length_append] at lengths
        rw [List.takeWhile_append, if_neg (by omega), List.isEmpty_eq_false_iff.mpr whole,
          if_neg Bool.false_ne_true, if_neg Bool.false_ne_true,
          inductionHypothesis _ (by rw [List.length_cons]; omega) _ rfl]

/-! ### Levels -/

/-- The depth of every value is its level. -/
def IsLevelled (depth : α → Int) (level : Int) : Forest α → Prop
  | nil => True
  | cons value below after =>
    depth value = level ∧ below.IsLevelled depth (level + 1) ∧ after.IsLevelled depth level

variable {depth : α → Int} {level : Int} {value : α} {address : List Nat} {forest : Forest α}

theorem isLevelled_putLast (levelled : forest.IsLevelled depth level)
    (fits : depth value = level) : (forest.putLast value).IsLevelled depth level := by
  induction forest with
  | nil => exact ⟨fits, trivial, trivial⟩
  | cons first below after _ afterHypothesis =>
    exact ⟨levelled.1, levelled.2.1, afterHypothesis levelled.2.2⟩

theorem isLevelled_addAt (levelled : forest.IsLevelled depth level)
    (fits : depth value = level + address.length) :
    (forest.addAt value address).IsLevelled depth level := by
  fun_induction addAt value address forest generalizing level with
  | case1 forest => exact isLevelled_putLast levelled (by simpa using fits)
  | case2 => trivial
  | case3 address first below after belowHypothesis =>
    refine ⟨levelled.1, belowHypothesis levelled.2.1 ?_, levelled.2.2⟩
    rw [List.length_cons] at fits
    omega
  | case4 place address first below after afterHypothesis =>
    exact ⟨levelled.1, levelled.2.1, afterHypothesis levelled.2.2 fits⟩

/-! ### The way along the last trees -/

/-- An address leads along the last trees. -/
inductive IsRightmost : Forest α → List Nat → Prop where
  /-- The top is on the way. -/
  | top (forest : Forest α) : IsRightmost forest []
  /-- The only tree is the last one. -/
  | down {first : α} {below : Forest α} {address : List Nat} :
    IsRightmost below address → IsRightmost (cons first below nil) (0 :: address)
  /-- The last tree is the last one of those after the first. -/
  | next {first : α} {below after : Forest α} {place : Nat} {address : List Nat} :
    IsRightmost after (place :: address) →
      IsRightmost (cons first below after) ((place + 1) :: address)

theorem IsRightmost.take (rightmost : IsRightmost forest address) (count : Nat) :
    IsRightmost forest (address.take count) := by
  induction rightmost generalizing count with
  | top forest =>
    rw [List.take_nil]
    exact .top forest
  | down _ inductionHypothesis =>
    cases count with
    | zero => exact .top _
    | succ count => exact .down (inductionHypothesis count)
  | next _ inductionHypothesis =>
    cases count with
    | zero => exact .top _
    | succ count => exact .next (inductionHypothesis (count + 1))

theorem isRightmost_putLast (value : α) (forest : Forest α) :
    IsRightmost (forest.putLast value) [forest.trees.length] := by
  induction forest with
  | nil => exact .down (.top nil)
  | cons first below after _ afterHypothesis => exact .next afterHypothesis

/-- The value added last is on the way along the last trees. -/
theorem IsRightmost.nextAddress (rightmost : IsRightmost forest address) (value : α) :
    IsRightmost (forest.addAt value address) (forest.nextAddress address) := by
  induction rightmost with
  | top forest =>
    rw [addAt, Forest.nextAddress, belowAt]
    exact isRightmost_putLast value forest
  | down _ inductionHypothesis => exact .down inductionHypothesis
  | next _ inductionHypothesis => exact .next inductionHypothesis

theorem putLast_eq_attach (levelled : forest.IsLevelled depth level)
    (fits : depth value = level) : forest.putLast value = forest.attach depth value := by
  induction forest with
  | nil => rfl
  | cons first below after _ afterHypothesis =>
    obtain ⟨own, -, afterLevelled⟩ := levelled
    rw [putLast, attach]
    cases after with
    | nil => rw [isEmpty, if_pos rfl, if_neg (by omega), putLast]
    | cons => rw [isEmpty, if_neg Bool.false_ne_true, afterHypothesis afterLevelled]

/-- In a forest with depths as levels a value is added along the last trees below the address that
has as many members as its depth says. -/
theorem IsRightmost.addAt_eq_attach (rightmost : IsRightmost forest address)
    (levelled : forest.IsLevelled depth level) (fits : depth value = level + address.length) :
    forest.addAt value address = forest.attach depth value := by
  induction rightmost generalizing level with
  | top forest =>
    rw [addAt]
    exact putLast_eq_attach levelled (by simpa using fits)
  | down _ inductionHypothesis =>
    obtain ⟨own, belowLevelled, -⟩ := levelled
    rw [List.length_cons] at fits
    rw [addAt, attach, isEmpty, if_pos rfl, if_pos (by omega),
      inductionHypothesis belowLevelled (by omega)]
  | @next first below after place address further inductionHypothesis =>
    have more : after.isEmpty = false := by cases further <;> rfl
    rw [addAt, attach, more, if_neg Bool.false_ne_true, inductionHypothesis levelled.2.2 fits]

/-! ### Forests of images -/

theorem putLast_map (change : α → β) (value : α) (forest : Forest α) :
    (forest.map change).putLast (change value) = (forest.putLast value).map change := by
  induction forest with
  | nil => rfl
  | cons first below after _ afterHypothesis => rw [map, putLast, putLast, map, afterHypothesis]

theorem addAt_map (change : α → β) (value : α) (address : List Nat) (forest : Forest α) :
    (forest.map change).addAt (change value) address = (forest.addAt value address).map change := by
  fun_induction addAt value address forest with
  | case1 forest => rw [addAt, putLast_map]
  | case2 => rfl
  | case3 address first below after belowHypothesis => rw [map, addAt, map, belowHypothesis]
  | case4 place address first below after afterHypothesis => rw [map, addAt, map, afterHypothesis]

theorem belowAt_map (change : α → β) (address : List Nat) (forest : Forest α) :
    (forest.map change).belowAt address = (forest.belowAt address).map change := by
  fun_induction belowAt address forest with
  | case1 forest => rw [belowAt]
  | case2 => rfl
  | case3 address first below after belowHypothesis => rw [map, belowAt, belowHypothesis]
  | case4 place address first below after afterHypothesis => rw [map, belowAt, afterHypothesis]

theorem nextAddress_map (change : α → β) (address : List Nat) (forest : Forest α) :
    (forest.map change).nextAddress address = forest.nextAddress address := by
  rw [nextAddress, nextAddress, belowAt_map, trees_map, List.length_map]

end OutlineDiagram.Forest
