/-
This file looks at a forest through the paths from its top to each of its values.
Changing values changes the paths value by value, and moving siblings leaves the
paths the same in another order, so what a path decides about a value does not
depend on the order in which siblings are drawn.
-/

import Mathlib.Data.List.Perm.Basic
import OutlineDiagram.Graph.Basic

namespace OutlineDiagram

namespace Forest

variable {α β : Type}

/-! ### Paths -/

/-- Each value with the values above it, closest first, where some values are above all trees. -/
def pathsFrom (above : List α) : Forest α → List (List α × α)
  | nil => []
  | cons value below after =>
    (above, value) :: (below.pathsFrom (value :: above) ++ after.pathsFrom above)

/-- Each value with the values above it, closest first. -/
def paths (forest : Forest α) : List (List α × α) := forest.pathsFrom []

theorem map_snd_pathsFrom (above : List α) (forest : Forest α) :
    (forest.pathsFrom above).map Prod.snd = forest.toList := by
  induction forest generalizing above with
  | nil => rfl
  | cons value below after belowHypothesis afterHypothesis =>
    rw [pathsFrom, List.map_cons, List.map_append, belowHypothesis, afterHypothesis, toList]

/-- A walk meets each value at the level that the length of its path tells. -/
theorem map_level_visitsFrom (above : List α) (forest : Forest α) :
    (forest.visitsFrom above.length).map (fun visit => (visit.level, visit.value)) =
      (forest.pathsFrom above).map fun path => (path.1.length, path.2) := by
  induction forest generalizing above with
  | nil => rfl
  | cons value below after belowHypothesis afterHypothesis =>
    have belowLevels := belowHypothesis (value :: above)
    rw [List.length_cons] at belowLevels
    rw [visitsFrom, pathsFrom, List.map_cons, List.map_cons, List.map_append, List.map_append,
      belowLevels, afterHypothesis]

theorem map_visits (tell : Nat × α → β) (forest : Forest α) :
    (forest.visits.map fun visit => tell (visit.level, visit.value)) =
      forest.paths.map fun path => tell (path.1.length, path.2) := by
  have levels := congrArg (List.map tell) (map_level_visitsFrom [] forest)
  rwa [List.map_map, List.map_map] at levels

theorem pathsFrom_map (change : α → β) (above : List α) (forest : Forest α) :
    (forest.map change).pathsFrom (above.map change) =
      (forest.pathsFrom above).map fun path => (path.1.map change, change path.2) := by
  induction forest generalizing above with
  | nil => rfl
  | cons value below after belowHypothesis afterHypothesis =>
    rw [map, pathsFrom, pathsFrom, List.map_cons, List.map_append, ← belowHypothesis,
      ← afterHypothesis]
    rfl

theorem paths_map (change : α → β) (forest : Forest α) :
    (forest.map change).paths =
      forest.paths.map fun path => (path.1.map change, change path.2) :=
  pathsFrom_map change [] forest

/-- The paths of a list of trees are those of each tree, in order. -/
theorem pathsFrom_ofTrees (above : List α) (trees : List (α × Forest α)) :
    (ofTrees trees).pathsFrom above =
      trees.flatMap fun tree => (above, tree.1) :: tree.2.pathsFrom (tree.1 :: above) := by
  induction trees with
  | nil => rfl
  | cons tree others inductionHypothesis =>
    rw [ofTrees, pathsFrom, inductionHypothesis, List.flatMap_cons, List.cons_append]

theorem map_map {γ : Type} (change : α → β) (further : β → γ) (forest : Forest α) :
    (forest.map change).map further = forest.map (further ∘ change) := by
  induction forest with
  | nil => rfl
  | cons value below after belowHypothesis afterHypothesis =>
    rw [map, map, map, belowHypothesis, afterHypothesis]
    rfl

end Forest

/-! ### Refilled lists -/

section Refilled

variable {α β : Type} {inClass test : α → Bool} {members given : List α}

/-- What does not tell the members of a class apart is told by each place as before. -/
theorem map_refill (tell : α → β) (inside : ∀ member ∈ given, inClass member = true)
    (alike : ∀ first second, inClass first = true → inClass second = true →
      tell first = tell second) :
    (refill inClass members given).map tell = members.map tell := by
  induction members generalizing given with
  | nil => rfl
  | cons first rest inductionHypothesis =>
    cases given with
    | nil => rfl
    | cons head others =>
      rw [refill]
      split
      · next chosen =>
        rw [List.map_cons, List.map_cons, alike head first (inside head List.mem_cons_self) chosen,
          inductionHypothesis fun member later => inside member (List.mem_cons_of_mem _ later)]
      · rw [List.map_cons, List.map_cons, inductionHypothesis inside]

/-- Members that are not in the class keep their order when a list is refilled. -/
theorem filter_refill (apart : ∀ member, test member = true → inClass member = false)
    (inside : ∀ member ∈ given, inClass member = true) :
    (refill inClass members given).filter test = members.filter test := by
  have unseen : ∀ member, inClass member = true → Option.guard test member = none := by
    intro member isIn
    refine Option.guard_eq_none_iff.mpr (Bool.eq_false_iff.mpr fun isTested => ?_)
    exact absurd isIn (by simp [apart member isTested])
  have told : (refill inClass members given).map (Option.guard test) =
      members.map (Option.guard test) :=
    map_refill _ inside fun first second isFirst isSecond =>
      (unseen first isFirst).trans (unseen second isSecond).symm
  have shown := congrArg (List.filterMap id) told
  rwa [List.filterMap_map, List.filterMap_map, Function.id_comp, List.filterMap_eq_filter] at shown

/-- A refilled list holds the given members in the places of the class. -/
theorem filter_refill_self (fits : given.length = (members.filter inClass).length)
    (inside : ∀ member ∈ given, inClass member = true) :
    (refill inClass members given).filter inClass = given := by
  induction members generalizing given with
  | nil => rw [List.eq_nil_of_length_eq_zero fits]; rfl
  | cons first rest inductionHypothesis =>
    cases chosen : inClass first with
    | true =>
      rw [List.filter_cons_of_pos chosen, List.length_cons] at fits
      obtain ⟨head, others, rfl⟩ := List.exists_cons_of_length_eq_add_one fits
      rw [refill, if_pos chosen, List.filter_cons_of_pos (inside head List.mem_cons_self),
        inductionHypothesis (Nat.succ.inj fits)
          fun member later => inside member (List.mem_cons_of_mem _ later)]
    | false =>
      have skipped : ¬ inClass first = true := by simp [chosen]
      rw [List.filter_cons_of_neg skipped] at fits
      cases given with
      | nil =>
        have none : rest.filter inClass = [] := List.eq_nil_of_length_eq_zero fits.symm
        rw [refill, List.filter_cons_of_neg skipped, none]
      | cons head others =>
        rw [refill, if_neg skipped, List.filter_cons_of_neg skipped]
        exact inductionHypothesis fits inside

/-- A list refilled with as many members as were taken out holds these and all others. -/
theorem refill_perm (fits : given.length = (members.filter inClass).length)
    (inside : ∀ member ∈ given, inClass member = true) :
    (refill inClass members given).Perm
      (given ++ members.filter fun member => !inClass member) := by
  have split := List.filter_append_perm inClass (refill inClass members given)
  rw [filter_refill_self fits inside, filter_refill (by simp) inside] at split
  exact split.symm

end Refilled

/-- Members that are moved to the front of the places of their class. -/
theorem length_preferred {α : Type} (inClass preferred : α → Bool) (members : List α) :
    ((members.filter inClass).filter preferred ++
      (members.filter inClass).filter fun member => !preferred member).length =
      (members.filter inClass).length := by
  rw [List.length_append]
  exact (List.length_eq_length_filter_add preferred).symm

theorem inClass_of_mem_preferred {α : Type} {inClass preferred : α → Bool} {members : List α}
    {member : α} (inside : member ∈ (members.filter inClass).filter preferred ++
      (members.filter inClass).filter fun member => !preferred member) : inClass member = true := by
  have chosen : member ∈ members.filter inClass := by
    rcases List.mem_append.mp inside with isPreferred | isOther
    · exact (List.mem_filter.mp isPreferred).1
    · exact (List.mem_filter.mp isOther).1
  exact (List.mem_filter.mp chosen).2

theorem preferWithin_perm {α : Type} (inClass preferred : α → Bool) (members : List α) :
    (preferWithin inClass preferred members).Perm members := by
  refine (refill_perm (length_preferred inClass preferred members)
    fun _ inside => inClass_of_mem_preferred inside).trans ?_
  refine ((List.filter_append_perm preferred _).append_right _).trans ?_
  exact List.filter_append_perm inClass members

/-- Moving members of a class within it keeps the order of the others. -/
theorem filter_preferWithin {α : Type} {inClass preferred test : α → Bool} (members : List α)
    (apart : ∀ member, test member = true → inClass member = false) :
    (preferWithin inClass preferred members).filter test = members.filter test :=
  filter_refill apart fun _ inside => inClass_of_mem_preferred inside

/-- A bullet of one kind is not of another. -/
theorem beq_kind_eq_false {kind one other : BulletKind} (different : one ≠ other)
    (isOne : (kind == one) = true) : (kind == other) = false := by
  rw [eq_of_beq isOne]
  exact beq_false_of_ne different

namespace Forest

/-! ### Arranged forests -/

theorem arrangeSiblings_perm (trees : List (Node × Forest Node)) :
    (arrangeSiblings trees).Perm trees :=
  (preferWithin_perm _ _ _).trans (preferWithin_perm _ _ _)

theorem pathsFrom_arrangeTop_perm (above : List Node) (forest : Forest Node) :
    (forest.arrangeTop.pathsFrom above).Perm (forest.pathsFrom above) := by
  have regroup : forest.pathsFrom above = (ofTrees forest.trees).pathsFrom above := by
    rw [ofTrees_trees]
  rw [arrangeTop, regroup, pathsFrom_ofTrees, pathsFrom_ofTrees]
  exact (arrangeSiblings_perm forest.trees).flatMap_right _

theorem pathsFrom_arrangeBelow_perm (above : List Node) (forest : Forest Node) :
    (forest.arrangeBelow.pathsFrom above).Perm (forest.pathsFrom above) := by
  induction forest generalizing above with
  | nil => exact .refl _
  | cons node below after belowHypothesis afterHypothesis =>
    rw [arrangeBelow, pathsFrom, pathsFrom]
    refine List.Perm.cons _ (List.Perm.append ?_ (afterHypothesis above))
    exact (pathsFrom_arrangeTop_perm _ _).trans (belowHypothesis (node :: above))

/-- Drawing siblings in another order only reorders the paths. -/
theorem paths_arrange_perm (forest : Forest Node) : forest.arrange.paths.Perm forest.paths :=
  (pathsFrom_arrangeTop_perm [] _).trans (pathsFrom_arrangeBelow_perm [] forest)

theorem map_id_paths (forest : Forest Node) :
    (forest.paths.map fun path => path.2.id) = forest.toList.map Node.id := by
  rw [← map_snd_pathsFrom [], List.map_map]
  rfl

/-- Writing sizes at the nodes changes no id. -/
theorem map_id_withSizes (forest : Forest Node) :
    forest.withSizes.map Node.id = forest.map Node.id := by
  induction forest with
  | nil => rfl
  | cons node below after belowHypothesis afterHypothesis =>
    rw [withSizes, map, map, belowHypothesis, afterHypothesis]

end Forest

end OutlineDiagram
