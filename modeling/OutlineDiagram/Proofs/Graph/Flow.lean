/-
This file follows the flow edges of an outline through its compilation. A flow edge
leads from a node to a step that comes right after it in pre-order. Rerouting keeps
that: what stands for a node is the last node up to it that survives, so a flow edge
that is rerouted joins neighbours of the pruned forest, and it still reaches a step.
A flow edge never meets its opposite, so all flow edges stay what they are.
-/

import OutlineDiagram.Proofs.Graph.Clean
import OutlineDiagram.Proofs.Links.Chains

namespace OutlineDiagram

/-! ### Neighbours -/

/-- In a list without repeats the place of a member tells the place of the next one. -/
theorem idxOf_eq_succ_of_next {α : Type} [DecidableEq α] {members : List α}
    (distinct : members.Nodup) {first second : α} (next : [first, second] <:+: members) :
    members.idxOf second = members.idxOf first + 1 := by
  obtain ⟨before, after, rfl⟩ := next
  rw [List.append_assoc, List.nodup_append] at distinct
  obtain ⟨-, pair, apart⟩ := distinct
  have firstFresh : first ∉ before := fun member => apart _ member _ List.mem_cons_self rfl
  have secondFresh : second ∉ before := fun member =>
    apart _ member _ (List.mem_cons_of_mem _ List.mem_cons_self) rfl
  have different : first ≠ second := fun same =>
    (List.nodup_cons.mp pair).1 (same ▸ List.mem_cons_self)
  rw [List.append_assoc, List.idxOf_append_of_notMem firstFresh,
    List.idxOf_append_of_notMem secondFresh, List.cons_append, List.cons_append,
    List.idxOf_cons_self, List.idxOf_cons_ne _ different, List.idxOf_cons_self]

/-- In a list without repeats two pairs of neighbours share their first members exactly if they
share their second ones. -/
theorem eq_iff_eq_of_next {α : Type} [DecidableEq α] {members : List α}
    (distinct : members.Nodup) {first second other next : α}
    (one : [first, second] <:+: members) (two : [other, next] <:+: members) :
    first = other ↔ second = next := by
  have firstMember := one.subset List.mem_cons_self
  have secondMember := one.subset (List.mem_cons_of_mem _ List.mem_cons_self)
  rw [← List.idxOf_inj firstMember, ← List.idxOf_inj secondMember,
    idxOf_eq_succ_of_next distinct one, idxOf_eq_succ_of_next distinct two]
  exact Nat.succ_inj.symm

/-- An edge leads from the node of a path to a step, whose path is the next one. -/
def StepsOn (paths : List (List Node × Node)) (edge : Edge) : Prop :=
  ∃ first second, [first, second] <:+: paths ∧ second.2.isProcess = true ∧
    edge = ⟨first.2.id, second.2.id, .flow, true⟩

/-- A flow edge leads from a node to the one right after it. -/
theorem stepsOn_of_mem_flowEdges {forest : Forest Node} {edge : Edge}
    (member : edge ∈ flowEdges forest) : StepsOn forest.paths edge := by
  rw [flowEdges, ← Forest.map_snd_pathsFrom []] at member
  obtain ⟨before, after, first, second, split, found⟩ := exists_of_mem_flowEdgesOf member
  refine ⟨first, second, ⟨before, after, ?_⟩, eq_of_flowEdge? found⟩
  rw [Forest.paths, split, List.append_assoc]
  rfl

namespace StepsOn

theorem exists_step {paths : List (List Node × Node)} {edge : Edge} (steps : StepsOn paths edge) :
    ∃ path ∈ paths, path.2.id = edge.destination ∧ path.2.isProcess = true := by
  obtain ⟨first, second, next, isStep, rfl⟩ := steps
  exact ⟨second, next.subset (List.mem_cons_of_mem _ List.mem_cons_self), rfl, isStep⟩

variable {forest : Forest Node} {first second : Edge}

/-- The ids of neighbours are neighbours. -/
theorem next_ids (steps : StepsOn forest.paths first) :
    [first.source, first.destination] <:+: forest.toList.map Node.id := by
  obtain ⟨one, two, next, -, rfl⟩ := steps
  have ids := next.map fun path => path.2.id
  rwa [Forest.map_id_paths] at ids

/-- Edges that join neighbours of one forest chain with each other. -/
theorem chainsWith (distinct : (forest.toList.map Node.id).Nodup)
    (one : StepsOn forest.paths first) (two : StepsOn forest.paths second) :
    first.ChainsWith second :=
  eq_iff_eq_of_next distinct one.next_ids two.next_ids

end StepsOn

/-! ### Rerouted flow edges -/

namespace Graph

variable {graph : Graph}

/-- A surviving node is the last one that survives up to a node below it, if it is folded or the node
itself: whatever comes between them lies below it, too. -/
theorem getLast?_filter_shows {before : List (List Node × Node)} {last upper : List Node × Node}
    (part : before ++ [last] <+: graph.forest.paths) (shows : graph.Shows upper)
    (stands : upper = last ∨ upper.2.id ∈ graph.foldIds ∧ upper.2 :: upper.1 <:+ last.1) :
    ((before ++ [last]).filter fun path => graph.Shows path).getLast? = some upper := by
  induction before using List.reverseRecOn generalizing last with
  | nil =>
    rcases stands with rfl | ⟨-, below⟩
    · simp [shows]
    · -- The first path leads to a root.
      obtain ⟨rest, whole⟩ := part
      have head : (graph.forest.pathsFrom []).head? = some last := by
        rw [← Forest.paths, ← whole]
        rfl
      rw [Forest.fst_head_pathsFrom head] at below
      exact absurd (List.suffix_nil.mp below) (by simp)
  | append_singleton before previous inductionHypothesis =>
    rcases stands with rfl | ⟨folded, below⟩
    · rw [List.filter_append, List.filter_cons_of_pos (by simpa using shows)]
      exact List.getLast?_concat
    · have gone : ¬ graph.Shows last := fun shown =>
        shown.2 upper.2 (below.subset List.mem_cons_self) folded
      have branches : last.1 <:+ previous.2 :: previous.1 := by
        obtain ⟨rest, whole⟩ := part
        have chain := Forest.isChain_pathsFrom [] graph.forest
        rw [← Forest.paths, ← whole] at chain
        exact (List.isChain_append.mp (List.isChain_append.mp chain).1).2.2 previous (by simp) last
          rfl
      rw [List.filter_append, List.filter_cons_of_neg (by simpa using gone), List.filter_nil,
        List.append_nil]
      refine inductionHypothesis ((List.prefix_append _ _).trans part) ?_
      rcases List.suffix_cons_iff.mp (below.trans branches) with same | further
      · exact Or.inl (Prod.ext (List.cons.inj same).2 (List.cons.inj same).1)
      · exact Or.inr ⟨folded, further⟩

/-- What stands for a node is the last node up to it that survives. -/
theorem exists_getLast?_filter_shows {before : List (List Node × Node)} {last : List Node × Node}
    (part : before ++ [last] <+: graph.forest.paths) {target : String}
    (stands : graph.standsFor? last = some target) :
    ∃ upper, ((before ++ [last]).filter fun path => graph.Shows path).getLast? = some upper ∧
      upper.2.id = target := by
  have member : last ∈ graph.forest.paths := part.subset (by simp)
  obtain ⟨upper, -, shows, isTarget, isUpper⟩ := exists_shows_of_standsFor? member stands
  exact ⟨upper, getLast?_filter_shows part shows isUpper, isTarget⟩

/-- A flow edge that is rerouted joins neighbours of the pruned forest, and it still leads to a
step. -/
theorem stepsOn_of_reroute? (distinct : graph.nodeIds.Nodup) {edge moved : Edge}
    (member : edge ∈ flowEdges graph.forest)
    (rerouted : reroute? graph.rerouteTable edge = some moved) :
    StepsOn graph.prunedForest.paths moved := by
  obtain ⟨first, second, ⟨before, after, split⟩, isStep, rfl⟩ := stepsOn_of_mem_flowEdges member
  have regroup : before ++ [first] ++ [second] ++ after = graph.forest.paths := by
    rw [← split, List.append_assoc before]
    rfl
  have untilSecond : before ++ [first] ++ [second] <+: graph.forest.paths := ⟨after, regroup⟩
  have untilFirst : before ++ [first] <+: graph.forest.paths :=
    (List.prefix_append _ _).trans untilSecond
  obtain ⟨-, fromFirst, fromSecond, apart, kind, drawn⟩ := reroute?_eq_some_iff.mp rerouted
  rw [resolve_rerouteTable_of_path distinct (untilFirst.subset (by simp))] at fromFirst
  rw [resolve_rerouteTable_of_path distinct (untilSecond.subset (by simp))] at fromSecond
  obtain ⟨upper, firstLast, source⟩ := exists_getLast?_filter_shows untilFirst fromFirst
  obtain ⟨lower, secondLast, destination⟩ := exists_getLast?_filter_shows untilSecond fromSecond
  rw [List.filter_append] at secondLast
  -- If the second node were gone, the same node would stand for both.
  have shown : graph.Shows second := by
    by_contra gone
    rw [List.filter_cons_of_neg (by simpa using gone), List.filter_nil, List.append_nil,
      firstLast] at secondLast
    rw [← source, ← destination, Option.some.inj secondLast] at apart
    exact apart rfl
  rw [List.filter_cons_of_pos (by simpa using shown), List.filter_nil, List.getLast?_concat]
    at secondLast
  obtain rfl := Option.some.inj secondLast
  obtain ⟨front, ends⟩ := List.getLast?_eq_some_iff.mp firstLast
  refine ⟨upper, second, ⟨front, after.filter fun path => graph.Shows path, ?_⟩, isStep, ?_⟩
  · rw [paths_prunedForest, ← regroup, List.filter_append, List.filter_append, ends,
      List.filter_cons_of_pos (by simpa using shown), List.filter_nil]
    simp only [List.append_assoc, List.cons_append, List.nil_append]
  · dsimp only at kind
    rw [source, destination, ← kind, ← drawn]

end Graph

/-! ### Drawn graphs -/

/-- The edges that the graph of an outline holds when it is drawn. -/
def drawnEdges (prune : Bool) (bullets : List Line) : List Edge :=
  linkedEdges prune bullets ++ impliedEdges ((Graph.ofBullets bullets).drawn prune).forest

theorem holds_drawnEdges (prune : Bool) (bullets : List Line) :
    ((Graph.ofBullets bullets).drawn prune).links.Holds (drawnEdges prune bullets) :=
  holds_linkedEdges prune bullets

variable {bullets : List Line} {edge : Edge}

/-- What is implied by a forest and is a flow edge is one of its flow edges. -/
theorem mem_flowEdges_of_mem_impliedEdges {forest : Forest Node}
    (member : edge ∈ impliedEdges forest) (isFlow : edge.isFlow = true) :
    edge ∈ flowEdges forest := by
  rcases List.mem_append.mp member with isHierarchy | inFlow
  · have inHierarchy := ((LinkGraph.mem_kept_iff drawn_of_mem_hierarchyEdges).mp isHierarchy).1
    rw [Edge.isFlow, (sublist_of_mem_hierarchyEdgesFrom inHierarchy).1] at isFlow
    exact absurd isFlow (by decide)
  · exact ((LinkGraph.mem_kept_iff drawn_of_mem_flowEdges).mp inFlow).1

/-- Without pruning no link is a flow edge. -/
theorem not_isFlow_of_mem_linkedEdges (member : edge ∈ linkedEdges false bullets) :
    edge.isFlow = false := by
  rw [Edge.isFlow, (mem_kept_authoredLinks_iff.mp member).2.1]
  rfl

section Compiled

variable (valid : ∀ line ∈ bullets, line.isBullet = true)
  (distinct : (bullets.map Line.id).Nodup)

include valid distinct

/-- A flow edge that was rerouted joins neighbours of the forest of what survives. -/
theorem stepsOn_of_mem_linkedEdges (member : edge ∈ linkedEdges true bullets)
    (isFlow : edge.isFlow = true) : StepsOn (fullGraph bullets).prunedForest.paths edge := by
  obtain ⟨moved, inside, rfl⟩ := LinkGraph.exists_of_mem_kept member
  obtain ⟨origin, known, rerouted⟩ := List.mem_filterMap.mp inside
  obtain ⟨-, -, -, -, kind, drawn⟩ := reroute?_eq_some_iff.mp rerouted
  have wasFlow : origin.isFlow = true := by rwa [Edge.isFlow, ← kind]
  have asBefore : { moved with mustRender := true } = moved := by rw [← drawn]
  rw [asBefore]
  rcases List.mem_append.mp ((holds_fullEdges bullets).edges_perm.mem_iff.mp known) with
    written | implied
  · rw [not_isFlow_of_mem_linkedEdges written] at wasFlow
    exact absurd wasFlow (by simp)
  · exact Graph.stepsOn_of_reroute? (nodup_nodeIds_fullGraph valid distinct)
      (mem_flowEdges_of_mem_impliedEdges implied wasFlow) rerouted

theorem nodup_nodeIds_drawn (prune : Bool) :
    ((Graph.ofBullets bullets).drawn prune).nodeIds.Nodup := by
  cases prune with
  | false => exact nodup_nodeIds_fullGraph valid distinct
  | true => exact nodup_nodeIds_prunedGraph valid distinct

/-- An edge of a drawn graph that is no link is implied by the shape of the outline. -/
theorem isImplied_of_ne_link {prune : Bool} (member : edge ∈ drawnEdges prune bullets)
    (notLink : edge.kind ≠ .link) :
    IsImplied ((Graph.ofBullets bullets).drawn prune).nodeIds (fullGraph bullets).forest.paths
      edge := by
  cases prune with
  | false => exact (mem_fullEdges valid distinct member).resolve_left fun link => notLink link.1
  | true => exact (mem_prunedEdges valid distinct member).resolve_left fun link => notLink link.1

/-- The opposite of an edge that is no link is not there. -/
theorem flip_not_mem_of_ne_link {prune : Bool} (member : edge ∈ drawnEdges prune bullets)
    (notLink : edge.kind ≠ .link) : edge.flip ∉ drawnEdges prune bullets := fun back =>
  (isImplied_of_ne_link valid distinct member notLink).asymm
    (nodup_nodeIds_drawn valid distinct prune) (nodup_paths_fullGraph valid distinct)
    (isImplied_of_ne_link valid distinct back notLink)

theorem flip_not_mem_of_isFlow (prune : Bool) :
    ∀ edge ∈ drawnEdges prune bullets, edge.isFlow = true →
      edge.flip ∉ drawnEdges prune bullets := by
  intro edge member isFlow
  have isFlowKind : edge.kind = .flow := eq_of_beq isFlow
  exact flip_not_mem_of_ne_link valid distinct member (by rw [isFlowKind]; decide)

/-- The edges that a drawn graph holds can be brought into normal form. -/
theorem unmerged_drawnEdges (prune : Bool) : LinkGraph.Unmerged (drawnEdges prune bullets) := by
  have fresh : ∀ edge ∈ drawnEdges prune bullets, edge.IsFresh :=
    List.forall_mem_append.mpr ⟨isFresh_of_mem_linkedEdges, isFresh_of_mem_impliedEdges⟩
  refine ⟨List.forall_mem_append.mpr ⟨ne_of_mem_linkedEdges, fun edge member => ?_⟩,
    fun edge member => (fresh edge member).1, fun edge member => (fresh edge member).2⟩
  have idsDistinct := nodup_nodeIds_drawn valid distinct prune
  have pathsDistinct := nodup_paths_fullGraph valid distinct
  cases prune with
  | false => exact (isImplied_of_mem_full valid distinct member).ne idsDistinct pathsDistinct
  | true => exact (isImplied_of_mem_pruned valid distinct member).ne idsDistinct pathsDistinct

/-- A flow edge of a drawn graph reaches a step. -/
theorem exists_step_of_isFlow {prune : Bool} (member : edge ∈ drawnEdges prune bullets)
    (isFlow : edge.isFlow = true) :
    ∃ step ∈ ((Graph.ofBullets bullets).drawn prune).nodes, step.id = edge.destination ∧
      step.isProcess = true := by
  have paths : ∃ path ∈ ((Graph.ofBullets bullets).drawn prune).forest.paths,
      path.2.id = edge.destination ∧ path.2.isProcess = true := by
    rcases List.mem_append.mp member with linked | implied
    · cases prune with
      | false =>
        rw [not_isFlow_of_mem_linkedEdges linked] at isFlow
        exact absurd isFlow (by simp)
      | true =>
        obtain ⟨path, inside, isStep⟩ :=
          (stepsOn_of_mem_linkedEdges valid distinct linked isFlow).exists_step
        exact ⟨path, (Forest.paths_arrange_perm _).mem_iff.mpr inside, isStep⟩
    · exact (stepsOn_of_mem_flowEdges
        (mem_flowEdges_of_mem_impliedEdges implied isFlow)).exists_step
  obtain ⟨path, inside, same, isStep⟩ := paths
  refine ⟨path.2, ?_, same, isStep⟩
  rw [Graph.nodes, ← Forest.map_snd_pathsFrom []]
  exact List.mem_map_of_mem inside

end Compiled

/-! ### Compiled outlines -/

namespace Graph

/-- Where no two bullets share an id, every flow edge of the compiled outline reaches a step that it
shows, and each id lists the flow edges that it listed before opposite edges were merged. -/
theorem flow_compile {lines : List Line} {built : Graph} (succeeds : build lines = .ok built)
    (distinct : ((bulletsOf lines).map Line.id).Nodup) (prune : Bool) :
    ∃ graph, compile prune lines = .ok graph ∧
      (∀ edge ∈ graph.links.edgesOf .flow, edge.destination ∈ graph.nodeIds ∧
        ∀ node ∈ graph.nodes, node.id = edge.destination → node.kind = .flow) ∧
      ∀ id, (graph.links.outputs id).filter Edge.isFlow =
          ((built.drawn prune).links.withoutRepeats.outputs id).filter Edge.isFlow ∧
        (graph.links.inputs id).filter Edge.isFlow =
          ((built.drawn prune).links.withoutRepeats.inputs id).filter Edge.isFlow := by
  obtain rfl := eq_ofBullets_of_build succeeds
  have valid : ∀ line ∈ bulletsOf lines, line.isBullet = true :=
    fun _ member => isBullet_of_mem_bulletsOf member
  have holds := holds_drawnEdges prune (bulletsOf lines)
  have unmerged := unmerged_drawnEdges valid distinct prune
  have alone := flip_not_mem_of_isFlow valid distinct prune
  refine ⟨_, compile_eq_ok (firstBadIndent?_of_build succeeds) prune, fun edge member => ?_,
    fun id => LinkGraph.filter_isFlow_normalize holds unmerged alone id⟩
  obtain ⟨inside, isFlow⟩ :=
    (LinkGraph.mem_edgesOf_flow_normalize_iff holds unmerged alone).mp member
  obtain ⟨step, listed, same, isStep⟩ := exists_step_of_isFlow valid distinct inside isFlow
  refine ⟨same ▸ List.mem_map_of_mem listed, fun node isNode sameId => ?_⟩
  have isOnly := List.inj_on_of_nodup_map (nodup_nodeIds_drawn valid distinct prune) isNode listed
    (sameId.trans same.symm)
  rw [isOnly]
  exact eq_of_beq isStep

/-- A folded bullet is linked with a step both ways, and a step below it leads to that one, which a
hidden step follows. -/
theorem flow_compile_fold :
    let lines : List Line :=
      [{ depth := 0, explicitId := some "a", visibility := .fold, idsOut := ["x"] },
        { depth := 1, explicitId := some "c", kind := .flow },
        { depth := 0, explicitId := some "x", kind := .flow, idsOut := ["a"] },
        { depth := 0, explicitId := some "h", kind := .flow, visibility := .hide },
        { depth := 0, explicitId := some "z", kind := .flow }]
    build lines = .ok (ofBullets lines) ∧ ((bulletsOf lines).map Line.id).Nodup ∧
      ∃ graph, compile true lines = .ok graph ∧
        graph.links.edgesOf .flow = [⟨"a", "x", .flow, true⟩, ⟨"x", "z", .flow, true⟩] ∧
        (∀ node ∈ graph.nodes, node.id = "x" → node.kind = .flow) ∧
        (graph.links.inputs "x").filter Edge.isFlow = [⟨"x", "a", .flow, true⟩] := by
  intro lines
  have succeeds : build lines = .ok (ofBullets lines) := by decide +kernel
  have distinct : ((bulletsOf lines).map Line.id).Nodup := by decide +kernel
  obtain ⟨graph, compiled, reaches, stays⟩ := flow_compile succeeds distinct true
  have flows : (compile true lines).map (fun final : Graph => final.links.edgesOf .flow) =
      .ok [⟨"a", "x", .flow, true⟩, ⟨"x", "z", .flow, true⟩] := by decide +kernel
  rw [compiled] at flows
  have isFlows : graph.links.edgesOf .flow =
      [⟨"a", "x", .flow, true⟩, ⟨"x", "z", .flow, true⟩] := Except.ok.inj flows
  refine ⟨succeeds, distinct, graph, compiled, isFlows, ?_, ?_⟩
  · exact (reaches ⟨"a", "x", .flow, true⟩ (isFlows ▸ List.mem_cons_self)).2
  · exact (stays "x").2.trans (by decide +kernel)

end Graph

end OutlineDiagram
