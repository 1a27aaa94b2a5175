/-
This file proves that no pass looks at a highlight. Nesting and counting, drawing
order, implied edges and pruning give the same when the highlights of the nodes are
changed before the pass or after it. What pruning leaves depends only on which paths
survive, so markers that close the same paths leave the same forest.
-/

import OutlineDiagram.Proofs.Forest.Arranged
import OutlineDiagram.Proofs.Graph.Reroute

namespace OutlineDiagram

/-! ### Changed values -/

namespace Forest

variable {α β : Type} (change : α → β)

theorem takeDeeper_map (depth : β → Int) (level : Int) (forest : Forest α) :
    (forest.map change).takeDeeper depth level =
      (forest.takeDeeper (depth ∘ change) level).map change := by
  induction forest with
  | nil => rfl
  | cons value below after _ afterHypothesis =>
    rw [map, takeDeeper, takeDeeper, afterHypothesis]
    show (if level < depth (change value) then _ else _) =
      (if level < depth (change value) then _ else _ : Forest α).map change
    split <;> rfl

theorem dropDeeper_map (depth : β → Int) (level : Int) (forest : Forest α) :
    (forest.map change).dropDeeper depth level =
      (forest.dropDeeper (depth ∘ change) level).map change := by
  induction forest with
  | nil => rfl
  | cons value below after _ afterHypothesis =>
    rw [map, dropDeeper, dropDeeper, afterHypothesis]
    show (if level < depth (change value) then _ else _) =
      (if level < depth (change value) then _ else _ : Forest α).map change
    split <;> rfl

/-- Nesting looks at depths only. -/
theorem nest_map (depth : β → Int) (values : List α) :
    nest depth (values.map change) = (nest (depth ∘ change) values).map change := by
  induction values with
  | nil => rfl
  | cons value rest inductionHypothesis =>
    show place depth (change value) (nest depth (rest.map change)) =
      (place (depth ∘ change) value (nest (depth ∘ change) rest)).map change
    rw [inductionHypothesis, place, takeDeeper_map, dropDeeper_map]
    rfl

end Forest

/-! ### Changed highlights -/

/-- The node with the highlight that its id says. -/
def Node.highlightBy (isLit : String → Bool) (node : Node) : Node :=
  { node with isHighlighted := isLit node.id }

namespace Forest

variable (isLit : String → Bool) (forest : Forest Node)

theorem withSizes_map_highlightBy :
    (forest.map (Node.highlightBy isLit)).withSizes =
      forest.withSizes.map (Node.highlightBy isLit) := by
  induction forest with
  | nil => rfl
  | cons node below after belowHypothesis afterHypothesis =>
    rw [map, withSizes, withSizes, map, belowHypothesis, afterHypothesis, size_map]
    rfl

theorem arrangeTop_map_highlightBy :
    (forest.map (Node.highlightBy isLit)).arrangeTop =
      forest.arrangeTop.map (Node.highlightBy isLit) := by
  have siblings := arrangeSiblings_map
    (fun tree => (Node.highlightBy isLit tree.1, tree.2.map (Node.highlightBy isLit)))
    (fun _ => rfl) (fun tree => congrArg not (isEmpty_map _ tree.2)) forest.trees
  rw [arrangeTop, trees_map, siblings, arrangeTop,
    ← ofTrees_trees ((ofTrees (arrangeSiblings forest.trees)).map _), trees_map, trees_ofTrees]

theorem arrangeBelow_map_highlightBy :
    (forest.map (Node.highlightBy isLit)).arrangeBelow =
      forest.arrangeBelow.map (Node.highlightBy isLit) := by
  induction forest with
  | nil => rfl
  | cons node below after belowHypothesis afterHypothesis =>
    rw [map, arrangeBelow, arrangeBelow, map, belowHypothesis, afterHypothesis,
      arrangeTop_map_highlightBy]

/-- The drawing order of siblings does not depend on highlights. -/
theorem arrange_map_highlightBy :
    (forest.map (Node.highlightBy isLit)).arrange =
      forest.arrange.map (Node.highlightBy isLit) := by
  rw [arrange, arrange, arrangeBelow_map_highlightBy, arrangeTop_map_highlightBy]

end Forest

/-! ### Implied edges -/

/-- What has been seen of children, with other highlights. -/
def SiblingState.highlightBy (isLit : String → Bool) (state : SiblingState) : SiblingState :=
  { state with lastLeaf := state.lastLeaf.map (Node.highlightBy isLit) }

section Implied

variable (isLit : String → Bool) {parent other : Node}

/-- A visit looks at the ids and kinds of the parent and of the child, and at the id of the last
leaf. -/
theorem visit_highlightBy (sameId : other.id = parent.id) (sameKind : other.kind = parent.kind)
    (state : SiblingState) (child : Node) (below : Forest Node) :
    (state.highlightBy isLit).visit other (child.highlightBy isLit)
        (below.map (Node.highlightBy isLit)) =
      ((state.visit parent child below).1,
        (state.visit parent child below).2.highlightBy isLit) := by
  have kind : (child.highlightBy isLit).kind = child.kind := rfl
  have isStep : other.isProcess = parent.isProcess := by
    rw [Node.isProcess, sameKind, Node.isProcess]
  have leaf : (((state.highlightBy isLit).lastLeaf).getD other).id =
      (state.lastLeaf.getD parent).id := by
    cases seen : state.lastLeaf with
    | none => simpa [SiblingState.highlightBy, seen] using sameId
    | some leaf => simp [SiblingState.highlightBy, seen, Node.highlightBy]
  unfold SiblingState.visit
  rw [kind, isStep, leaf, Forest.isEmpty_map, sameId]
  cases child.kind with
  | flowBreak => rfl
  | flow =>
    show (if (!parent.isProcess && !state.hasFlowLink) = true then _ else _) = _
    split <;> rfl
  | data =>
    dsimp only
    split <;> rfl

theorem hierarchyEdgesFrom_map_highlightBy (sameId : other.id = parent.id)
    (sameKind : other.kind = parent.kind) (state : SiblingState) (forest : Forest Node) :
    hierarchyEdgesFrom other (state.highlightBy isLit) (forest.map (Node.highlightBy isLit)) =
      hierarchyEdgesFrom parent state forest := by
  induction forest generalizing parent other state with
  | nil => rfl
  | cons child below after belowHypothesis afterHypothesis =>
    have belowEdges : hierarchyEdgesFrom (child.highlightBy isLit) {}
        (below.map (Node.highlightBy isLit)) = hierarchyEdgesFrom child {} below :=
      @belowHypothesis child (child.highlightBy isLit) rfl rfl {}
    rw [Forest.map, hierarchyEdgesFrom, hierarchyEdgesFrom,
      visit_highlightBy isLit sameId sameKind, belowEdges, afterHypothesis sameId sameKind]

theorem hierarchyEdges_map_highlightBy (forest : Forest Node) :
    hierarchyEdges .root (forest.map (Node.highlightBy isLit)) = hierarchyEdges .root forest :=
  hierarchyEdgesFrom_map_highlightBy isLit rfl rfl {} forest

theorem flowEdges_map_highlightBy (forest : Forest Node) :
    flowEdges (forest.map (Node.highlightBy isLit)) = flowEdges forest := by
  rw [flowEdges, flowEdges, Forest.toList_map,
    flowEdgesOf_map (Node.highlightBy isLit) fun _ _ => rfl]

/-- Implied edges are the same for graphs that differ in highlights only. -/
theorem withImpliedEdges_highlightBy {graph redrawn : Graph}
    (forest : redrawn.forest = graph.forest.map (Node.highlightBy isLit))
    (links : redrawn.links = graph.links) :
    redrawn.withImpliedEdges.forest =
        graph.withImpliedEdges.forest.map (Node.highlightBy isLit) ∧
      redrawn.withImpliedEdges.links = graph.withImpliedEdges.links := by
  unfold Graph.withImpliedEdges
  dsimp only
  rw [forest, links, Forest.arrange_map_highlightBy, hierarchyEdges_map_highlightBy,
    flowEdges_map_highlightBy]
  exact ⟨rfl, rfl⟩

end Implied

theorem withImpliedEdges_congr {graph other : Graph} (forest : other.forest = graph.forest)
    (links : other.links = graph.links) :
    other.withImpliedEdges.forest = graph.withImpliedEdges.forest ∧
      other.withImpliedEdges.links = graph.withImpliedEdges.links := by
  unfold Graph.withImpliedEdges
  dsimp only
  rw [forest, links]
  exact ⟨rfl, rfl⟩

/-! ### Pruned forests -/

theorem pruneForest_map_highlightBy (isLit : String → Bool) (foldIds hideIds : IdSet)
    (state : PathState) (forest : Forest Node) :
    pruneForest foldIds hideIds state (forest.map (Node.highlightBy isLit)) =
      (pruneForest foldIds hideIds state forest).map (Node.highlightBy isLit) := by
  induction forest generalizing state with
  | nil => rfl
  | cons node below after belowHypothesis afterHypothesis =>
    rw [Forest.map, pruneForest, pruneForest, belowHypothesis, afterHypothesis]
    show (if state.keeps foldIds hideIds node.id = true then _ else _) =
      (if state.keeps foldIds hideIds node.id = true then _ else _ : Forest Node).map _
    split <;> rfl

/-- Markers under which the same paths survive leave the same forest. -/
theorem pruneForest_congr {foldIds hideIds otherFoldIds otherHideIds : IdSet} {above : List Node}
    {forest : Forest Node}
    (same : ∀ path ∈ forest.pathsFrom above,
      PathState.survives foldIds hideIds (path.1.map Node.id, path.2.id) =
        PathState.survives otherFoldIds otherHideIds (path.1.map Node.id, path.2.id)) :
    pruneForest foldIds hideIds (.along foldIds hideIds (above.map Node.id)) forest =
      pruneForest otherFoldIds otherHideIds
        (.along otherFoldIds otherHideIds (above.map Node.id)) forest := by
  induction forest generalizing above with
  | nil => rfl
  | cons node below after belowHypothesis afterHypothesis =>
    rw [Forest.pathsFrom, List.forall_mem_cons, List.forall_mem_append] at same
    obtain ⟨own, inBelow, inAfter⟩ := same
    have belowSame := belowHypothesis inBelow
    rw [List.map_cons, PathState.along, PathState.along] at belowSame
    rw [pruneForest, pruneForest, afterHypothesis inAfter, belowSame]
    exact if_congr (Bool.eq_iff_iff.mp own) rfl rfl

end OutlineDiagram
