/-
This file proves which way implied edges go. A hierarchy edge leads on in pre-order.
A flow edge leads to a step from its parent, or from below the sibling before it;
between steps beside each other it follows their order. Since a path tells which of
these is the case, no two flow edges are opposite to each other, even if they come
from forests that draw siblings in different orders.
-/

import OutlineDiagram.Graph.Implied
import OutlineDiagram.Proofs.Forest.Order

namespace OutlineDiagram

/-! ### Hierarchy edges -/

namespace SiblingState

/-- The ids of a parent and of the last leaf seen among its children. -/
def sourceIds (parent : Node) (state : SiblingState) : List String :=
  parent.id :: (state.lastLeaf.map Node.id).toList

variable {parent child : Node} {below : Forest Node} {state : SiblingState}

theorem exists_of_visit {edge : Edge} (visited : (state.visit parent child below).1 = some edge) :
    ∃ source ∈ state.sourceIds parent, edge = ⟨source, child.id, .hierarchy, true⟩ := by
  have isParent : parent.id ∈ state.sourceIds parent := List.mem_cons_self
  rw [visit] at visited
  split at visited
  · exact absurd visited (by simp)
  · split at visited
    · exact ⟨_, isParent, (Option.some.inj visited).symm⟩
    · exact absurd visited (by simp)
  · split at visited
    · exact ⟨_, isParent, (Option.some.inj visited).symm⟩
    · refine ⟨_, ?_, (Option.some.inj visited).symm⟩
      rw [sourceIds]
      cases state.lastLeaf with
      | none => exact List.mem_cons_self
      | some leaf => exact List.mem_cons_of_mem _ List.mem_cons_self

theorem sourceIds_visit_sublist (parent child : Node) (below : Forest Node)
    (state : SiblingState) : ((state.visit parent child below).2.sourceIds parent).Sublist
      (state.sourceIds parent ++ [child.id]) := by
  have same : (state.sourceIds parent).Sublist (state.sourceIds parent ++ [child.id]) :=
    List.sublist_append_left _ _
  rw [visit]
  split
  · exact same
  · split <;> exact same
  · split
    · exact same
    · exact (List.sublist_append_right _ [child.id]).cons_cons parent.id

end SiblingState

/-- A hierarchy edge leads on in pre-order. -/
theorem sublist_of_mem_hierarchyEdgesFrom {parent : Node} {state : SiblingState}
    {forest : Forest Node} {edge : Edge} (member : edge ∈ hierarchyEdgesFrom parent state forest) :
    edge.kind = .hierarchy ∧ edge.mustRender = true ∧
      [edge.source, edge.destination].Sublist
        (state.sourceIds parent ++ forest.toList.map Node.id) := by
  induction forest generalizing parent state with
  | nil => exact absurd member List.not_mem_nil
  | cons child below after belowHypothesis afterHypothesis =>
    rw [hierarchyEdgesFrom, List.append_assoc] at member
    rw [Forest.toList, List.map_cons, List.map_append]
    rcases List.mem_append.mp member with isVisited | member
    · obtain ⟨source, known, rfl⟩ :=
        SiblingState.exists_of_visit (Option.mem_toList.mp isVisited)
      exact ⟨rfl, rfl, (List.singleton_sublist.mpr known).append
        ((List.nil_sublist _).cons_cons child.id)⟩
    · rcases List.mem_append.mp member with inBelow | inAfter
      · obtain ⟨kind, drawn, onward⟩ := belowHypothesis inBelow
        refine ⟨kind, drawn, onward.trans ?_⟩
        exact ((List.sublist_append_left _ _).cons_cons child.id).trans
          (List.sublist_append_right _ _)
      · obtain ⟨kind, drawn, onward⟩ := afterHypothesis inAfter
        refine ⟨kind, drawn, onward.trans ?_⟩
        have wider := (state.sourceIds_visit_sublist parent child below).append
          (List.sublist_append_right (below.toList.map Node.id) (after.toList.map Node.id))
        rw [List.append_assoc] at wider
        exact wider

/-! ### Flow edges -/

/-- Flow edges join neighbours. -/
theorem exists_of_mem_flowEdgesOf {paths : List (List Node × Node)} {edge : Edge}
    (member : edge ∈ flowEdgesOf (paths.map Prod.snd)) :
    ∃ before after first second, paths = before ++ first :: second :: after ∧
      flowEdge? first.2 second.2 = some edge := by
  induction paths with
  | nil => exact absurd member List.not_mem_nil
  | cons first rest inductionHypothesis =>
    cases rest with
    | nil => exact absurd member List.not_mem_nil
    | cons second rest =>
      rw [List.map_cons, List.map_cons, flowEdgesOf] at member
      rcases List.mem_append.mp member with isFirst | later
      · exact ⟨[], rest, first, second, rfl, Option.mem_toList.mp isFirst⟩
      · obtain ⟨before, after, one, two, split, found⟩ := inductionHypothesis later
        exact ⟨first :: before, after, one, two, congrArg _ split, found⟩

/-- Flow edges stay the same under a change of the nodes that each pair of neighbours allows. -/
theorem flowEdgesOf_map (change : Node → Node) (same : ∀ first second,
    flowEdge? (change first) (change second) = flowEdge? first second) (nodes : List Node) :
    flowEdgesOf (nodes.map change) = flowEdgesOf nodes := by
  induction nodes with
  | nil => rfl
  | cons first rest inductionHypothesis =>
    cases rest with
    | nil => rfl
    | cons second rest =>
      rw [List.map_cons] at inductionHypothesis
      rw [List.map_cons, List.map_cons, flowEdgesOf, flowEdgesOf, same, inductionHypothesis]

theorem eq_of_flowEdge? {first second : Node} {edge : Edge}
    (found : flowEdge? first second = some edge) :
    second.isProcess = true ∧ edge = ⟨first.id, second.id, .flow, true⟩ := by
  rw [flowEdge?] at found
  by_cases leads : (second.isProcess && (first.isProcess || first.isFlowBreak)) = true
  · rw [if_pos leads] at found
    exact ⟨(Bool.and_eq_true _ _ ▸ leads).1, (Option.some.inj found).symm⟩
  · rw [if_neg leads] at found
    exact absurd found (by simp)

/-- A flow edge joins nodes of the forest. -/
theorem exists_nodes_of_mem_flowEdges {forest : Forest Node} {edge : Edge}
    (member : edge ∈ flowEdges forest) :
    ∃ first ∈ forest.toList, ∃ second ∈ forest.toList,
      edge = ⟨first.id, second.id, .flow, true⟩ := by
  rw [flowEdges, ← Forest.map_snd_pathsFrom []] at member
  obtain ⟨before, after, first, second, split, found⟩ := exists_of_mem_flowEdgesOf member
  have firstMember : first ∈ forest.pathsFrom [] := by simp [split]
  have secondMember : second ∈ forest.pathsFrom [] := by simp [split]
  rw [← Forest.map_snd_pathsFrom []]
  exact ⟨first.2, List.mem_map_of_mem firstMember, second.2, List.mem_map_of_mem secondMember,
    (eq_of_flowEdge? found).2⟩

namespace Forest

/-- The second of two paths leads to a step that may follow on the node of the first: the way to it
branches off from the first way, and of steps beside each other it is the later one. -/
structure LeadsOn (paths : List (List Node × Node)) (first second : List Node × Node) : Prop where
  /-- The second node is a step. -/
  isStep : second.2.isProcess = true
  /-- What is above the second node is part of the way to the first. -/
  branches : second.1 <:+ first.2 :: first.1
  /-- The second node is not on the way to the first. -/
  isNew : second.2 ∉ first.2 :: first.1
  /-- Of steps beside each other the second comes later. -/
  later : RelateSteps (fun one two => paths.idxOf one < paths.idxOf two) first second

/-- Of two nodes only one leads on to the other. -/
theorem LeadsOn.asymm {paths : List (List Node × Node)} {first second : List Node × Node}
    (forth : LeadsOn paths first second) (back : LeadsOn paths second first) : False := by
  have upper : second.1 <:+ first.1 := by
    rcases List.suffix_cons_iff.mp forth.branches with whole | part
    · exact absurd (List.mem_cons_of_mem _ (whole ▸ List.mem_cons_self)) back.isNew
    · exact part
  have lower : first.1 <:+ second.1 := by
    rcases List.suffix_cons_iff.mp back.branches with whole | part
    · exact absurd (List.mem_cons_of_mem _ (whole ▸ List.mem_cons_self)) forth.isNew
    · exact part
  have beside : first.1 = second.1 :=
    lower.eq_of_length (Nat.le_antisymm lower.length_le upper.length_le)
  have less := forth.later beside back.isStep forth.isStep
  have more := back.later beside.symm forth.isStep back.isStep
  exact absurd less (Nat.lt_asymm more)

/-- A flow edge leads on from the node met just before. -/
theorem exists_of_mem_flowEdges {forest : Forest Node} (distinct : forest.toList.Nodup)
    {edge : Edge} (member : edge ∈ flowEdges forest) :
    ∃ first second, [first, second].Sublist forest.paths ∧
      edge = ⟨first.2.id, second.2.id, .flow, true⟩ ∧ second.2.isProcess = true ∧
      second.1 <:+ first.2 :: first.1 ∧ second.2 ∉ first.2 :: first.1 := by
  rw [flowEdges, ← map_snd_pathsFrom []] at member
  obtain ⟨before, after, first, second, split, found⟩ := exists_of_mem_flowEdgesOf member
  obtain ⟨isStep, rfl⟩ := eq_of_flowEdge? found
  have pair : [first, second].Sublist forest.paths := by
    rw [paths, split]
    exact ((List.nil_sublist after).cons_cons second |>.cons_cons first).trans
      (List.sublist_append_right before _)
  have chain := isChain_pathsFrom [] forest
  rw [split] at chain
  have branches := (List.isChain_cons_cons.mp (List.isChain_append.mp chain).2.1).1
  have isNew := List.pairwise_iff_forall_sublist.mp
    (pairwise_pathsFrom distinct fun _ none => absurd none List.not_mem_nil) pair
  exact ⟨first, second, pair, rfl, isStep, branches, isNew⟩

/-- A flow edge of a forest that keeps the order of steps leads on. -/
theorem leadsOn_of_mem_flowEdges {forest : Forest Node} (distinct : forest.toList.Nodup)
    {paths : List (List Node × Node)}
    (related : forest.paths.Pairwise (RelateSteps fun one two => paths.idxOf one < paths.idxOf two))
    {edge : Edge} (member : edge ∈ flowEdges forest) :
    ∃ first ∈ forest.paths, ∃ second ∈ forest.paths,
      edge = ⟨first.2.id, second.2.id, .flow, true⟩ ∧ LeadsOn paths first second := by
  obtain ⟨first, second, pair, same, isStep, branches, isNew⟩ :=
    exists_of_mem_flowEdges distinct member
  exact ⟨first, pair.subset List.mem_cons_self, second,
    pair.subset (List.mem_cons_of_mem _ List.mem_cons_self), same,
    isStep, branches, isNew, List.pairwise_iff_forall_sublist.mp related pair⟩

end Forest

end OutlineDiagram
