/-
This file follows the number at each node through the compilation. It is written once,
when nothing is pruned yet, and no later stage counts again: siblings change places with
all that is below them, and pruning takes nodes out without a look at the numbers of
those that stay. So a node of the diagram tells how many bullets are below it in the
outline, and it is drawn as folded exactly if there are some and the diagram shows no
child of it.
-/

import OutlineDiagram.Proofs.Forest.Arranged
import OutlineDiagram.Proofs.Graph.Survivors

namespace OutlineDiagram

namespace Forest

variable {α : Type}

/-! ### Visits -/

/-- The visits of a list of trees are those of each tree, in order. -/
theorem visitsFrom_ofTrees (level : Nat) (trees : List (α × Forest α)) :
    (ofTrees trees).visitsFrom level =
      trees.flatMap fun tree => ⟨level, tree.1, tree.2⟩ :: tree.2.visitsFrom (level + 1) := by
  induction trees with
  | nil => rfl
  | cons tree others inductionHypothesis =>
    rw [ofTrees, visitsFrom, inductionHypothesis, List.flatMap_cons, List.cons_append]

theorem toList_below_sublist {level : Nat} {forest : Forest α} {visit : Visit α}
    (member : visit ∈ forest.visitsFrom level) : visit.below.toList.Sublist forest.toList := by
  induction forest generalizing level with
  | nil => exact absurd member List.not_mem_nil
  | cons value below after belowHypothesis afterHypothesis =>
    rw [visitsFrom, List.mem_cons, List.mem_append] at member
    rw [toList]
    refine List.Sublist.cons _ ?_
    rcases member with rfl | inBelow | inAfter
    · exact List.sublist_append_left _ _
    · exact (belowHypothesis inBelow).trans (List.sublist_append_left _ _)
    · exact (afterHypothesis inAfter).trans (List.sublist_append_right _ _)

/-- Counting writes its number at each value that a walk meets. -/
def Visit.withSize (visit : Visit Node) : Visit Node :=
  ⟨visit.level, { visit.value with size := visit.below.size }, visit.below.withSizes⟩

theorem visitsFrom_withSizes (level : Nat) (forest : Forest Node) :
    forest.withSizes.visitsFrom level = (forest.visitsFrom level).map Visit.withSize := by
  induction forest generalizing level with
  | nil => rfl
  | cons node below after belowHypothesis afterHypothesis =>
    rw [withSizes, visitsFrom, visitsFrom, List.map_cons, List.map_append, belowHypothesis,
      afterHypothesis]
    rfl

/-- What is below a value that a walk meets is arranged with the forest. -/
def Visit.arranged (visit : Visit Node) : Visit Node := { visit with below := visit.below.arrange }

theorem visitsFrom_arrangeTop_perm (level : Nat) (forest : Forest Node) :
    (forest.arrangeTop.visitsFrom level).Perm (forest.visitsFrom level) := by
  have regroup : forest.visitsFrom level = (ofTrees forest.trees).visitsFrom level := by
    rw [ofTrees_trees]
  rw [arrangeTop, regroup, visitsFrom_ofTrees, visitsFrom_ofTrees]
  exact (arrangeSiblings_perm forest.trees).flatMap_right _

theorem visitsFrom_arrangeBelow_perm (level : Nat) (forest : Forest Node) :
    (forest.arrangeBelow.visitsFrom level).Perm
      ((forest.visitsFrom level).map Visit.arranged) := by
  induction forest generalizing level with
  | nil => exact .refl _
  | cons node below after belowHypothesis afterHypothesis =>
    rw [arrangeBelow, visitsFrom, visitsFrom, List.map_cons, List.map_append]
    refine List.Perm.cons _ (List.Perm.append ?_ (afterHypothesis level))
    exact (visitsFrom_arrangeTop_perm _ _).trans (belowHypothesis (level + 1))

/-- Drawing siblings in another order only reorders the visits and what is below them. -/
theorem visits_arrange_perm (forest : Forest Node) :
    forest.arrange.visits.Perm (forest.visits.map Visit.arranged) :=
  (visitsFrom_arrangeTop_perm 0 _).trans (visitsFrom_arrangeBelow_perm 0 forest)

/-! ### Ids of roots -/

/-- The ids of the roots. -/
def rootIds (forest : Forest Node) : List String := forest.roots.map Node.id

theorem rootIds_withSizes (forest : Forest Node) : forest.withSizes.rootIds = forest.rootIds := by
  induction forest with
  | nil => rfl
  | cons node below after _ afterHypothesis => exact congrArg (node.id :: ·) afterHypothesis

theorem rootIds_arrangeBelow (forest : Forest Node) :
    forest.arrangeBelow.rootIds = forest.rootIds := by
  induction forest with
  | nil => rfl
  | cons node below after _ afterHypothesis => exact congrArg (node.id :: ·) afterHypothesis

theorem rootIds_arrange_perm (forest : Forest Node) :
    forest.arrange.rootIds.Perm forest.rootIds := by
  rw [← rootIds_arrangeBelow forest, arrange, arrangeTop, rootIds, roots, trees_ofTrees, rootIds,
    roots]
  exact ((arrangeSiblings_perm _).map _).map _

theorem isEmpty_iff_rootIds {forest : Forest Node} : forest.isEmpty = true ↔ forest.rootIds = [] := by
  cases forest <;> simp [isEmpty, rootIds, roots, trees]

/-! ### Parts of a forest -/

/-- The ids of a forest in pre-order. -/
def nodeIds (forest : Forest Node) : List String := forest.toList.map Node.id

theorem nodeIds_cons (node : Node) (below after : Forest Node) :
    (cons node below after).nodeIds = node.id :: (below.nodeIds ++ after.nodeIds) := by
  rw [nodeIds, toList, List.map_cons, List.map_append, nodeIds, nodeIds]

theorem rootIds_sublist_nodeIds (forest : Forest Node) : forest.rootIds.Sublist forest.nodeIds :=
  forest.roots_sublist_toList.map _

theorem rootIds_below_sublist {level : Nat} {forest : Forest Node} {visit : Visit Node}
    (member : visit ∈ forest.visitsFrom level) : visit.below.rootIds.Sublist forest.nodeIds :=
  visit.below.rootIds_sublist_nodeIds.trans ((toList_below_sublist member).map Node.id)

theorem nodeIds_arrange_perm (forest : Forest Node) :
    forest.arrange.nodeIds.Perm forest.nodeIds := by
  rw [nodeIds, nodeIds, ← map_id_paths, ← map_id_paths]
  exact (paths_arrange_perm forest).map _

/-- A forest shows part of a whole one: each node that it shows is one of the whole, and it has
nothing below it exactly if the forest shows none of its children there. -/
def ShowsPart (whole shown : Forest Node) : Prop :=
  ∀ visit ∈ shown.visits, ∃ full ∈ whole.visits, full.value = visit.value ∧
    (visit.below.isEmpty = true ↔ ∀ id ∈ full.below.rootIds, id ∉ shown.nodeIds)

theorem showsPart_self (forest : Forest Node) : forest.ShowsPart forest := by
  intro visit member
  refine ⟨visit, member, rfl, isEmpty_iff_rootIds.trans ?_⟩
  rw [List.eq_nil_iff_forall_not_mem]
  refine forall_congr' fun id => ⟨fun absent isRoot => absurd isRoot absent, fun absent isRoot => ?_⟩
  exact absent isRoot ((rootIds_below_sublist member).subset isRoot)

theorem ShowsPart.arrange {whole shown : Forest Node} (part : whole.ShowsPart shown) :
    whole.ShowsPart shown.arrange := by
  intro visit member
  obtain ⟨before, isBefore, rfl⟩ :=
    List.mem_map.mp ((visits_arrange_perm shown).mem_iff.mp member)
  obtain ⟨full, found, same, empty⟩ := part before isBefore
  refine ⟨full, found, same, ?_⟩
  simp only [(nodeIds_arrange_perm shown).mem_iff]
  rw [← empty]
  exact Bool.eq_iff_iff.mp (isEmpty_arrange before.below)

/-! ### Pruned forests -/

section Prune

variable (foldIds hideIds : IdSet)

theorem rootIds_pruneForest_sublist (state : PathState) (forest : Forest Node) :
    (pruneForest foldIds hideIds state forest).rootIds.Sublist forest.rootIds := by
  induction forest with
  | nil => exact .slnil
  | cons node below after _ afterHypothesis =>
    rw [pruneForest]
    split
    · exact afterHypothesis.cons_cons node.id
    · exact afterHypothesis.cons node.id

theorem nodeIds_pruneForest_sublist (state : PathState) (forest : Forest Node) :
    (pruneForest foldIds hideIds state forest).nodeIds.Sublist forest.nodeIds := by
  induction forest generalizing state with
  | nil => exact .slnil
  | cons node below after belowHypothesis afterHypothesis =>
    rw [pruneForest, nodeIds_cons]
    split
    · rw [nodeIds_cons]
      exact ((belowHypothesis _).append (afterHypothesis state)).cons_cons _
    · exact ((afterHypothesis state).trans (List.sublist_append_right _ _)).cons _

variable {foldIds hideIds} {node : Node} {below after lower later : Forest Node} {id : String}

/-- A forest whose roots are among those of another one is empty exactly if it has none of them. -/
theorem isEmpty_iff_forall_rootIds (part : lower.rootIds.Sublist below.rootIds) :
    lower.isEmpty = true ↔ ∀ id ∈ below.rootIds, id ∉ lower.nodeIds := by
  constructor
  · intro empty id _ inside
    cases lower with
    | nil => exact absurd inside List.not_mem_nil
    | cons => exact absurd empty Bool.false_ne_true
  · intro absent
    refine isEmpty_iff_rootIds.mpr (List.eq_nil_iff_forall_not_mem.mpr fun id isRoot => ?_)
    exact absent id (part.subset isRoot) (lower.rootIds_sublist_nodeIds.subset isRoot)

/-- An id that is below a node is among what is left if it is among what is left below. -/
theorem mem_nodeIds_cons_iff_below (distinct : (cons node below after).nodeIds.Nodup)
    (left : later.nodeIds.Sublist after.nodeIds) (inside : id ∈ below.nodeIds) :
    id ∈ (cons node lower later).nodeIds ↔ id ∈ lower.nodeIds := by
  rw [nodeIds_cons, List.nodup_cons, List.nodup_append, List.mem_append, not_or] at distinct
  obtain ⟨⟨fresh, -⟩, -, -, apart⟩ := distinct
  rw [nodeIds_cons, List.mem_cons, List.mem_append]
  refine ⟨fun found => ?_, fun found => Or.inr (Or.inl found)⟩
  rcases found with rfl | isLower | isLater
  · exact absurd inside fresh
  · exact isLower
  · exact absurd rfl (apart id inside id (left.subset isLater))

/-- An id that is after a tree is among what is left if it is among what is left after the tree. -/
theorem mem_nodeIds_cons_iff_after (distinct : (cons node below after).nodeIds.Nodup)
    (left : lower.nodeIds.Sublist below.nodeIds) (inside : id ∈ after.nodeIds) :
    id ∈ (cons node lower later).nodeIds ↔ id ∈ later.nodeIds := by
  rw [nodeIds_cons, List.nodup_cons, List.nodup_append, List.mem_append, not_or] at distinct
  obtain ⟨⟨-, fresh⟩, -, -, apart⟩ := distinct
  rw [nodeIds_cons, List.mem_cons, List.mem_append]
  refine ⟨fun found => ?_, fun found => Or.inr (Or.inr found)⟩
  rcases found with rfl | isLower | isLater
  · exact absurd inside fresh
  · exact absurd rfl (apart id (left.subset isLower) id inside)
  · exact isLater

/-- Where no two nodes share an id, a node that survives has nothing below it exactly if none of its
children survives. -/
theorem exists_visit_of_pruneForest {state : PathState} {level : Nat} {forest : Forest Node}
    (distinct : forest.nodeIds.Nodup) {visit : Visit Node}
    (member : visit ∈ (pruneForest foldIds hideIds state forest).visitsFrom level) :
    ∃ full ∈ forest.visitsFrom level, full.value = visit.value ∧ (visit.below.isEmpty = true ↔
      ∀ id ∈ full.below.rootIds, id ∉ (pruneForest foldIds hideIds state forest).nodeIds) := by
  induction forest generalizing state level with
  | nil => exact absurd member List.not_mem_nil
  | cons node below after belowHypothesis afterHypothesis =>
    have parts := distinct
    rw [nodeIds_cons, List.nodup_cons, List.nodup_append] at parts
    obtain ⟨-, belowDistinct, afterDistinct, -⟩ := parts
    rw [pruneForest] at member ⊢
    split at member
    · next kept =>
      rw [if_pos kept]
      have lowerPart := nodeIds_pruneForest_sublist foldIds hideIds
        (state.enter foldIds hideIds node.id) below
      have laterPart := nodeIds_pruneForest_sublist foldIds hideIds state after
      rw [visitsFrom, List.mem_cons, List.mem_append] at member
      rcases member with rfl | inBelow | inAfter
      · refine ⟨⟨level, node, below⟩, List.mem_cons_self, rfl, ?_⟩
        refine (isEmpty_iff_forall_rootIds (rootIds_pruneForest_sublist _ _ _ below)).trans ?_
        refine forall₂_congr fun id isRoot => not_congr ?_
        exact (mem_nodeIds_cons_iff_below distinct laterPart
          (below.rootIds_sublist_nodeIds.subset isRoot)).symm
      · obtain ⟨full, found, same, empty⟩ := belowHypothesis belowDistinct inBelow
        refine ⟨full, List.mem_cons_of_mem _ (List.mem_append_left _ found), same, empty.trans ?_⟩
        refine forall₂_congr fun id isRoot => not_congr ?_
        exact (mem_nodeIds_cons_iff_below distinct laterPart
          ((rootIds_below_sublist found).subset isRoot)).symm
      · obtain ⟨full, found, same, empty⟩ := afterHypothesis afterDistinct inAfter
        refine ⟨full, List.mem_cons_of_mem _ (List.mem_append_right _ found), same, empty.trans ?_⟩
        refine forall₂_congr fun id isRoot => not_congr ?_
        exact (mem_nodeIds_cons_iff_after distinct lowerPart
          ((rootIds_below_sublist found).subset isRoot)).symm
    · next gone =>
      rw [if_neg gone]
      obtain ⟨full, found, same, empty⟩ := afterHypothesis afterDistinct member
      exact ⟨full, List.mem_cons_of_mem _ (List.mem_append_right _ found), same, empty⟩

end Prune

end Forest

/-! ### Compiled outlines -/

namespace Graph

/-- Where no two nodes share an id, what is drawn of a graph shows part of it with all counted. -/
theorem showsPart_drawn {graph : Graph} (distinct : graph.forest.nodeIds.Nodup) (prune : Bool) :
    graph.forest.withSizes.arrange.ShowsPart (graph.drawn prune).forest := by
  cases prune with
  | false => exact Forest.showsPart_self _
  | true =>
    have counted : graph.forest.withSizes.nodeIds = graph.forest.nodeIds := by
      rw [Forest.nodeIds, ← Forest.toList_map, Forest.map_id_withSizes, Forest.toList_map,
        Forest.nodeIds]
    have arranged : graph.forest.withSizes.arrange.nodeIds.Nodup := by
      rw [(Forest.nodeIds_arrange_perm _).nodup_iff, counted]
      exact distinct
    refine Forest.ShowsPart.arrange fun visit member => ?_
    exact Forest.exists_visit_of_pruneForest arranged member

/-- The nodes of a diagram and those of the whole outline: each node that is drawn is one of the
outline, its number is that of the nodes below it there, and it is folded exactly if there are some
and none of those right below it is drawn. -/
def CountsWhole (whole shown : Forest Node) : Prop :=
  ∀ visit ∈ shown.visits, ∃ full ∈ whole.visits,
    visit.value = { full.value with size := full.below.size } ∧
      (visit.value.isFolded visit.below = true ↔
        0 < full.below.size ∧ ∀ child ∈ full.below.roots, child.id ∉ shown.toList.map Node.id)

/-- A part of a forest in which all was counted and arranged keeps the numbers. -/
theorem countsWhole_of_showsPart {whole shown : Forest Node}
    (part : whole.withSizes.arrange.ShowsPart shown) : CountsWhole whole shown := by
  intro visit member
  obtain ⟨arranged, isArranged, sameValue, empty⟩ := part visit member
  obtain ⟨counted, isCounted, rfl⟩ :=
    List.mem_map.mp ((Forest.visits_arrange_perm _).mem_iff.mp isArranged)
  rw [Forest.visits, Forest.visitsFrom_withSizes] at isCounted
  obtain ⟨full, found, rfl⟩ := List.mem_map.mp isCounted
  have size : visit.value.isLeaf = true ↔ ¬ 0 < full.below.size := by
    rw [← sameValue, Nat.pos_iff_ne_zero, not_not]
    exact beq_iff_eq.trans Int.natCast_eq_zero
  have children : ∀ id, id ∈ full.withSize.arranged.below.rootIds ↔ id ∈ full.below.rootIds :=
    fun id => by
      rw [← Forest.rootIds_withSizes full.below]
      exact (Forest.rootIds_arrange_perm _).mem_iff
  refine ⟨full, found, sameValue.symm, ?_⟩
  rw [Node.isFolded, Bool.and_eq_true, Bool.not_eq_true', ← Bool.not_eq_true, size, not_not, empty]
  simp only [children]
  exact and_congr_right fun _ => List.forall_mem_map

/-- Where no two bullets share an id, the number at each node of a compiled outline is that of all
bullets below it in the outline, shown or not, and the node is folded exactly if there are some and
none of its children is shown. -/
theorem countsWhole_compile {lines : List Line} {built : Graph}
    (succeeds : build lines = .ok built) (distinct : ((bulletsOf lines).map Line.id).Nodup)
    (prune : Bool) :
    ∃ graph, compile prune lines = .ok graph ∧ CountsWhole built.forest graph.forest := by
  obtain rfl := eq_ofBullets_of_build succeeds
  have ids : (ofBullets (bulletsOf lines)).forest.nodeIds = (bulletsOf lines).map Line.id := by
    rw [ofBullets, Forest.nodeIds, Forest.toList_map, Forest.toList_nest, List.map_map]
    rfl
  rw [← ids] at distinct
  exact ⟨_, compile_eq_ok (firstBadIndent?_of_build succeeds) prune,
    countsWhole_of_showsPart (showsPart_drawn distinct prune)⟩

/-- A node whose only child is hidden is folded, though it carries no marker, and one above a folded
node counts what is below that. -/
theorem countsWhole_compile_hidden :
    let lines : List Line :=
      [{ depth := 0, explicitId := some "a" },
        { depth := 1, explicitId := some "b", visibility := .fold },
        { depth := 2, explicitId := some "c" },
        { depth := 1, explicitId := some "d" },
        { depth := 2, explicitId := some "e", visibility := .hide }]
    build lines = .ok (ofBullets lines) ∧ ((bulletsOf lines).map Line.id).Nodup ∧
      ∃ graph, compile true lines = .ok graph ∧ CountsWhole (ofBullets lines).forest graph.forest ∧
        (graph.forest.visits.map fun visit =>
          (visit.value.id, visit.value.size, visit.value.isFolded visit.below)) =
            [("a", 4, false), ("b", 1, true), ("d", 1, true)] := by
  intro lines
  have succeeds : build lines = .ok (ofBullets lines) := by decide +kernel
  have distinct : ((bulletsOf lines).map Line.id).Nodup := by decide +kernel
  obtain ⟨graph, compiled, counts⟩ := countsWhole_compile succeeds distinct true
  obtain rfl : _ = graph := Except.ok.inj
    ((compile_eq_ok (firstBadIndent?_of_build succeeds) true).symm.trans compiled)
  exact ⟨succeeds, distinct, _, compiled, counts, by decide +kernel⟩

end Graph

end OutlineDiagram
