/-
This file says when the flow edges of a compiled outline make chains. One walk over a
forest makes chains, so they are there where nothing is pruned. Pruning keeps the flow
edges of the full forest and adds those of the pruned one. Each of the two joins
neighbours, but a folded bullet has no bullets below it any more, so it may be drawn
in another place among its siblings and have other neighbours there.
-/

import OutlineDiagram.Proofs.Graph.Flow

namespace OutlineDiagram

variable {bullets : List Line} {edge : Edge}

/-! ### Both walks -/

/-- The flow edges that are added for a forest are those that it implies. -/
theorem mem_kept_flowEdges_iff {forest : Forest Node} :
    edge ∈ LinkGraph.kept (flowEdges forest) ↔ edge ∈ impliedEdges forest ∧ edge.isFlow = true := by
  rw [LinkGraph.mem_kept_iff drawn_of_mem_flowEdges]
  constructor
  · rintro ⟨inFlow, named⟩
    obtain ⟨first, second, -, -, rfl⟩ := stepsOn_of_mem_flowEdges inFlow
    refine ⟨List.mem_append_right _ ?_, rfl⟩
    exact (LinkGraph.mem_kept_iff drawn_of_mem_flowEdges).mpr ⟨inFlow, named⟩
  · rintro ⟨implied, isFlow⟩
    refine ⟨mem_flowEdges_of_mem_impliedEdges implied isFlow, ?_⟩
    rcases List.mem_append.mp implied with kept | kept
    · exact LinkGraph.named_of_mem_kept kept
    · exact LinkGraph.named_of_mem_kept kept

/-- The flow edges that pruning leaves are those that were rerouted. -/
theorem mem_edgesOf_flow_prune_iff :
    edge ∈ (fullGraph bullets).prune.links.edgesOf .flow ↔
      edge ∈ linkedEdges true bullets ∧ edge.isFlow = true := by
  have holds : (fullGraph bullets).prune.links.Holds (linkedEdges true bullets) :=
    LinkGraph.holds_addEdges _
  rw [LinkGraph.edgesOf, List.mem_filter, holds.edges_perm.mem_iff]
  rfl

section Compiled

variable (valid : ∀ line ∈ bullets, line.isBullet = true)
  (distinct : (bullets.map Line.id).Nodup)

include valid distinct

/-- Flow edges that are drawn for one forest chain with each other. -/
theorem chainsWith_of_mem_impliedEdges {prune : Bool} {first second : Edge}
    (firstMember : first ∈ impliedEdges ((Graph.ofBullets bullets).drawn prune).forest)
    (secondMember : second ∈ impliedEdges ((Graph.ofBullets bullets).drawn prune).forest)
    (firstFlow : first.isFlow = true) (secondFlow : second.isFlow = true) :
    first.ChainsWith second :=
  StepsOn.chainsWith (nodup_nodeIds_drawn valid distinct prune)
    (stepsOn_of_mem_flowEdges (mem_flowEdges_of_mem_impliedEdges firstMember firstFlow))
    (stepsOn_of_mem_flowEdges (mem_flowEdges_of_mem_impliedEdges secondMember secondFlow))

/-- Flow edges that were rerouted chain with each other. -/
theorem chainsWith_of_mem_linkedEdges {first second : Edge}
    (firstMember : first ∈ linkedEdges true bullets)
    (secondMember : second ∈ linkedEdges true bullets)
    (firstFlow : first.isFlow = true) (secondFlow : second.isFlow = true) :
    first.ChainsWith second :=
  StepsOn.chainsWith (nodup_ids_prunedForest valid distinct)
    (stepsOn_of_mem_linkedEdges valid distinct firstMember firstFlow)
    (stepsOn_of_mem_linkedEdges valid distinct secondMember secondFlow)

/-- The flow edges of a drawn graph make chains exactly if each that is no part of its forest chains
with each that is. -/
theorem flowsInChains_normalize_drawn_iff (prune : Bool) :
    ((Graph.ofBullets bullets).drawn prune).links.normalize.FlowsInChains ↔
      ∀ linked ∈ linkedEdges prune bullets,
        ∀ implied ∈ impliedEdges ((Graph.ofBullets bullets).drawn prune).forest,
          linked.isFlow = true → implied.isFlow = true → linked.ChainsWith implied := by
  rw [LinkGraph.flowsInChains_normalize_iff (holds_drawnEdges prune bullets)
    (unmerged_drawnEdges valid distinct prune) (flip_not_mem_of_isFlow valid distinct prune)]
  constructor
  · intro chains linked linkedMember implied impliedMember
    exact chains linked (List.mem_append_left _ linkedMember) implied
      (List.mem_append_right _ impliedMember)
  · intro across first firstMember second secondMember firstFlow secondFlow
    rcases List.mem_append.mp firstMember with firstLinked | firstImplied
    · rcases List.mem_append.mp secondMember with secondLinked | secondImplied
      · cases prune with
        | false =>
          rw [not_isFlow_of_mem_linkedEdges firstLinked] at firstFlow
          exact absurd firstFlow (by simp)
        | true =>
          exact chainsWith_of_mem_linkedEdges valid distinct firstLinked secondLinked firstFlow
            secondFlow
      · exact across first firstLinked second secondImplied firstFlow secondFlow
    · rcases List.mem_append.mp secondMember with secondLinked | secondImplied
      · exact (across second secondLinked first firstImplied secondFlow firstFlow).symm
      · exact chainsWith_of_mem_impliedEdges valid distinct firstImplied secondImplied firstFlow
          secondFlow

/-- Without pruning the flow edges make chains. -/
theorem flowsInChains_fullGraph : (fullGraph bullets).links.normalize.FlowsInChains := by
  refine (flowsInChains_normalize_drawn_iff valid distinct false).mpr ?_
  intro linked member _ _ isFlow
  rw [not_isFlow_of_mem_linkedEdges member] at isFlow
  exact absurd isFlow (by simp)

/-- With pruning the flow edges make chains exactly if each that was rerouted chains with each of the
pruned forest. -/
theorem flowsInChains_prunedGraph_iff :
    (prunedGraph bullets).links.normalize.FlowsInChains ↔
      ∀ moved ∈ (fullGraph bullets).prune.links.edgesOf .flow,
        ∀ drawn ∈ LinkGraph.kept (flowEdges (prunedGraph bullets).forest),
          moved.ChainsWith drawn := by
  refine (flowsInChains_normalize_drawn_iff valid distinct true).trans ⟨?_, ?_⟩
  · intro across moved isMoved drawn isDrawn
    obtain ⟨linked, movedFlow⟩ := mem_edgesOf_flow_prune_iff.mp isMoved
    obtain ⟨implied, drawnFlow⟩ := mem_kept_flowEdges_iff.mp isDrawn
    exact across moved linked drawn implied movedFlow drawnFlow
  · intro across linked linkedMember implied impliedMember linkedFlow impliedFlow
    exact across linked (mem_edgesOf_flow_prune_iff.mpr ⟨linkedMember, linkedFlow⟩) implied
      (mem_kept_flowEdges_iff.mpr ⟨impliedMember, impliedFlow⟩)

/-- Where the pruned forest is in drawing order already, both walks meet its nodes in one order, and
the flow edges make chains. -/
theorem flowsInChains_prunedGraph_of_arranged
    (inOrder : (fullGraph bullets).prunedForest.arrange = (fullGraph bullets).prunedForest) :
    (prunedGraph bullets).links.normalize.FlowsInChains := by
  refine (flowsInChains_normalize_drawn_iff valid distinct true).mpr ?_
  intro linked linkedMember implied impliedMember linkedFlow impliedFlow
  have sameForest : (prunedGraph bullets).forest = (fullGraph bullets).prunedForest :=
    (forest_prunedGraph bullets).trans inOrder
  rw [← prunedGraph, sameForest] at impliedMember
  exact StepsOn.chainsWith (nodup_ids_prunedForest valid distinct)
    (stepsOn_of_mem_linkedEdges valid distinct linkedMember linkedFlow)
    (stepsOn_of_mem_flowEdges (mem_flowEdges_of_mem_impliedEdges impliedMember impliedFlow))

end Compiled

/-! ### Compiled outlines -/

namespace Graph

/-- Where no two bullets share an id, the flow edges of a compiled outline make chains if nothing is
pruned. If it is pruned, they make chains exactly if each flow edge that was rerouted chains with each
one of the pruned forest, and they do if no siblings are drawn in another order after pruning. -/
theorem flowsInChains_compile_iff {lines : List Line} {built : Graph}
    (succeeds : build lines = .ok built) (distinct : ((bulletsOf lines).map Line.id).Nodup) :
    (∃ graph, compile false lines = .ok graph ∧ graph.links.FlowsInChains) ∧
      ∃ graph, compile true lines = .ok graph ∧
        (graph.links.FlowsInChains ↔ ∀ moved ∈ (built.drawn false).prune.links.edgesOf .flow,
          ∀ drawn ∈ LinkGraph.kept (flowEdges graph.forest), moved.ChainsWith drawn) ∧
        ((built.drawn false).prunedForest.arrange = (built.drawn false).prunedForest →
          graph.links.FlowsInChains) := by
  obtain rfl := eq_ofBullets_of_build succeeds
  have valid : ∀ line ∈ bulletsOf lines, line.isBullet = true :=
    fun _ member => isBullet_of_mem_bulletsOf member
  have compiled := compile_eq_ok (firstBadIndent?_of_build succeeds)
  refine ⟨⟨_, compiled false, ?_⟩, _, compiled true, ?_, ?_⟩
  · rw [links_normalize]
    exact flowsInChains_fullGraph valid distinct
  · rw [links_normalize, forest_normalize]
    exact flowsInChains_prunedGraph_iff valid distinct
  · rw [links_normalize]
    exact flowsInChains_prunedGraph_of_arranged valid distinct

/-- A start of a chain is folded over its step, and what it led to is led to from there. -/
theorem flowsInChains_compile_fold :
    let lines : List Line :=
      [{ depth := 0, explicitId := some "a", kind := .flowBreak, visibility := .fold },
        { depth := 1, explicitId := some "c", kind := .flow },
        { depth := 0, explicitId := some "x", kind := .flow },
        { depth := 0, explicitId := some "b", kind := .flowBreak },
        { depth := 0, explicitId := some "d", kind := .flow }]
    build lines = .ok (ofBullets lines) ∧ ((bulletsOf lines).map Line.id).Nodup ∧
      ∃ graph, compile true lines = .ok graph ∧ graph.links.FlowsInChains := by
  intro lines
  have succeeds : build lines = .ok (ofBullets lines) := by decide +kernel
  have distinct : ((bulletsOf lines).map Line.id).Nodup := by decide +kernel
  obtain ⟨-, graph, compiled, -, inChains⟩ := flowsInChains_compile_iff succeeds distinct
  exact ⟨succeeds, distinct, graph, compiled, inChains (by decide +kernel)⟩

/-- The start of a chain that is folded is drawn after the one that is not, whose step then leads to
the step of the other. -/
theorem not_flowsInChains_compile_arranged :
    let lines := (Line.readAll 2 ["< A // a [+]", "  > C // c", "> X // x", "< B // b", "  > D // d"]
      (IdSupply.numbered [])).1
    build lines = .ok (ofBullets lines) ∧ ((bulletsOf lines).map Line.id).Nodup ∧
      ∃ graph, compile true lines = .ok graph ∧
        (graph.links.inputs "x").filter Edge.isFlow =
          [⟨"x", "a", .flow, true⟩, ⟨"x", "d", .flow, true⟩] ∧ ¬ graph.links.FlowsInChains := by
  intro lines
  have legal : firstBadIndent? 0 (bulletsOf lines) = none := by decide +kernel
  have two : ((((ofBullets (bulletsOf lines)).drawn true).normalize.links.inputs "x").filter
      Edge.isFlow) = [⟨"x", "a", .flow, true⟩, ⟨"x", "d", .flow, true⟩] := by decide +kernel
  refine ⟨by decide +kernel, by decide +kernel, _, compile_eq_ok legal true, two, fun chains => ?_⟩
  have one := (chains "x").2
  rw [two] at one
  exact absurd one (by decide)

end Graph

end OutlineDiagram
