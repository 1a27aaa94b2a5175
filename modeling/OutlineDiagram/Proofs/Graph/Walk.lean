/-
This file says where flow edges lead if nothing is pruned. They lead between
neighbours of a walk over the drawn forest, from a step or the start of a chain to a
step. Siblings are in drawing order there, so these are the neighbours of the outline
as long as the nodes are drawn in the order of the bullets, and other ones where a
subgraph is drawn before a leaf that precedes it.
-/

import OutlineDiagram.Proofs.Graph.Chains
import OutlineDiagram.Proofs.Graph.Places

namespace OutlineDiagram

/-! ### Neighbours of a walk -/

/-- An edge leads to a step from the node right before it, which is a step or starts a chain. -/
def FlowsAlong (nodes : List Node) (edge : Edge) : Prop :=
  ∃ first second, [first, second] <:+: nodes ∧ second.kind = .flow ∧
    (first.kind = .flow ∨ first.kind = .flowBreak) ∧ edge = ⟨first.id, second.id, .flow, true⟩

theorem flowEdge?_eq_some_iff {first second : Node} {edge : Edge} :
    flowEdge? first second = some edge ↔ second.kind = .flow ∧
      (first.kind = .flow ∨ first.kind = .flowBreak) ∧
        edge = ⟨first.id, second.id, .flow, true⟩ := by
  rw [flowEdge?, Option.ite_none_right_eq_some, Bool.and_eq_true, Bool.or_eq_true, Option.some_inj,
    Node.isProcess, Node.isProcess, Node.isFlowBreak, beq_iff_eq, beq_iff_eq, beq_iff_eq, and_assoc,
    eq_comm (a := edge)]

/-- Neighbours are the first two members or neighbours after the first one. -/
theorem next_cons_iff {α : Type} {one two first second : α} {rest : List α} :
    [one, two] <:+: first :: second :: rest ↔
      one = first ∧ two = second ∨ [one, two] <:+: second :: rest := by
  rw [List.infix_cons_iff, List.cons_prefix_cons, List.cons_prefix_cons]
  simp only [List.nil_prefix, and_true]

theorem not_flowsAlong_of_short {nodes : List Node} {edge : Edge} (short : nodes.length < 2) :
    ¬ FlowsAlong nodes edge :=
  fun ⟨_, _, next, _⟩ => Nat.not_lt.mpr next.length_le short

/-- The flow edges of a list of nodes lead along it. -/
theorem mem_flowEdgesOf_iff {nodes : List Node} {edge : Edge} :
    edge ∈ flowEdgesOf nodes ↔ FlowsAlong nodes edge := by
  induction nodes with
  | nil => exact iff_of_false List.not_mem_nil (not_flowsAlong_of_short (by decide))
  | cons first rest inductionHypothesis =>
    cases rest with
    | nil =>
      have short : [first].length < 2 := Nat.lt_succ_self 1
      exact iff_of_false List.not_mem_nil (not_flowsAlong_of_short short)
    | cons second rest =>
      rw [flowEdgesOf, List.mem_append, inductionHypothesis, Option.mem_toList,
        flowEdge?_eq_some_iff]
      constructor
      · rintro (here | ⟨one, two, next, leads⟩)
        · exact ⟨first, second, next_cons_iff.mpr (Or.inl ⟨rfl, rfl⟩), here⟩
        · exact ⟨one, two, next_cons_iff.mpr (Or.inr next), leads⟩
      · rintro ⟨one, two, next, leads⟩
        rcases next_cons_iff.mp next with ⟨rfl, rfl⟩ | later
        · exact Or.inl leads
        · exact Or.inr ⟨one, two, later, leads⟩

/-- A walk may count what is below each node or not. -/
theorem flowsAlong_map_unsized_iff {nodes : List Node} {edge : Edge} :
    FlowsAlong (nodes.map Node.unsized) edge ↔ FlowsAlong nodes edge := by
  rw [← mem_flowEdgesOf_iff, flowEdgesOf_map Node.unsized fun _ _ => rfl, mem_flowEdgesOf_iff]

/-! ### Walks in the order of the outline -/

/-- Two lists with the same members, which a key tells apart, are the same if they have their keys
in the same order. -/
theorem eq_of_perm_of_map_eq {α β : Type} {key : α → β} {members others : List α}
    (perm : members.Perm others) (distinct : (others.map key).Nodup)
    (same : members.map key = others.map key) : members = others := by
  refine List.ext_getElem perm.length_eq fun index inMembers inOthers => ?_
  refine List.inj_on_of_nodup_map distinct (perm.subset (List.getElem_mem inMembers))
    (List.getElem_mem inOthers) ?_
  have inKeys : index < (members.map key).length := by rwa [List.length_map]
  have keys := List.getElem_of_eq same inKeys
  rwa [List.getElem_map, List.getElem_map] at keys

section Outline

variable {bullets : List Line} (valid : ∀ line ∈ bullets, line.isBullet = true)

include valid

/-- The nodes that are drawn without pruning are those of the bullets, in some order. -/
theorem nodes_fullGraph_perm :
    ((fullGraph bullets).nodes.map Node.unsized).Perm (bullets.map Node.ofLine) := by
  have nodes := (paths_fullGraph_perm valid).map Prod.snd
  have ofPlaces : ((withChains [] bullets).map nodesAt).map Prod.snd = bullets.map Node.ofLine := by
    rw [List.map_map, ← map_snd_withChains [] bullets, List.map_map, map_snd_withChains]
    rfl
  rw [ofPlaces, Forest.paths, Forest.map_snd_pathsFrom, Forest.toList_map] at nodes
  exact nodes

/-- Where the nodes are drawn in the order of the bullets, the walk over them is one over the
bullets. -/
theorem nodes_fullGraph_eq (distinct : (bullets.map Line.id).Nodup)
    (inOrder : (fullGraph bullets).nodeIds = bullets.map Line.id) :
    (fullGraph bullets).nodes.map Node.unsized = bullets.map Node.ofLine := by
  have ids : (bullets.map Node.ofLine).map Node.id = bullets.map Line.id := by
    rw [List.map_map]
    rfl
  refine eq_of_perm_of_map_eq (nodes_fullGraph_perm valid) (ids ▸ distinct) ?_
  rw [ids, ← inOrder, Graph.nodeIds, List.map_map]
  rfl

/-- Where no two bullets share an id, the flow edges that are drawn without pruning lead along the
walk over the drawn forest, from and to nodes with an id. -/
theorem mem_edgesOf_flow_fullGraph_iff (distinct : (bullets.map Line.id).Nodup) {edge : Edge} :
    edge ∈ (fullGraph bullets).links.normalize.edgesOf .flow ↔
      FlowsAlong (fullGraph bullets).nodes edge ∧ edge.source ≠ "" ∧ edge.destination ≠ "" := by
  have noLink : ¬ (edge ∈ linkedEdges false bullets ∧ edge.isFlow = true) := fun linked => by
    rw [not_isFlow_of_mem_linkedEdges linked.1] at linked
    exact Bool.false_ne_true linked.2
  refine (LinkGraph.mem_edgesOf_flow_normalize_iff (holds_drawnEdges false bullets)
    (unmerged_drawnEdges valid distinct false)
    (flip_not_mem_of_isFlow valid distinct false)).trans ?_
  rw [drawnEdges, List.mem_append, or_and_right, or_iff_right noLink, ← mem_kept_flowEdges_iff,
    LinkGraph.mem_kept_iff drawn_of_mem_flowEdges, flowEdges, mem_flowEdgesOf_iff]
  rfl

theorem nodup_edgesOf_flow_fullGraph (distinct : (bullets.map Line.id).Nodup) :
    ((fullGraph bullets).links.normalize.edgesOf .flow).Nodup := by
  have unmerged := unmerged_drawnEdges valid distinct false
  refine (LinkGraph.edgesOf_normalize_perm (by decide)
    (flip_not_mem_of_isFlow valid distinct false) (holds_drawnEdges false bullets)
    unmerged).nodup_iff.mpr ?_
  exact unmerged.plain.nodup.filter _

end Outline

/-! ### Compiled outlines -/

namespace Graph

/-- Where no two bullets share an id and nothing is pruned, the flow edges of the compiled outline
are the pairs of neighbours in its drawn forest of which the second is a step and the first a step or
the start of a chain, if both have an id. Where the forest is drawn in the order of the bullets, and
every bullet has an id, they are these neighbours among the bullets. -/
theorem flowsAlong_compile {lines : List Line} {built : Graph} (succeeds : build lines = .ok built)
    (distinct : ((bulletsOf lines).map Line.id).Nodup) :
    ∃ graph, compile false lines = .ok graph ∧ (graph.links.edgesOf .flow).Nodup ∧
      (∀ edge, edge ∈ graph.links.edgesOf .flow ↔
        FlowsAlong graph.nodes edge ∧ edge.source ≠ "" ∧ edge.destination ≠ "") ∧
      (graph.nodeIds = (bulletsOf lines).map Line.id →
        (∀ bullet ∈ bulletsOf lines, bullet.id ≠ "") →
          ∀ edge, edge ∈ graph.links.edgesOf .flow ↔
            FlowsAlong ((bulletsOf lines).map Node.ofLine) edge) := by
  have valid : ∀ line ∈ bulletsOf lines, line.isBullet = true :=
    fun _ member => isBullet_of_mem_bulletsOf member
  have along : ∀ edge, edge ∈ (fullGraph (bulletsOf lines)).links.normalize.edgesOf .flow ↔
      FlowsAlong (fullGraph (bulletsOf lines)).nodes edge ∧ edge.source ≠ "" ∧
        edge.destination ≠ "" := fun edge => mem_edgesOf_flow_fullGraph_iff valid distinct
  have compiled : compile false lines = .ok (fullGraph (bulletsOf lines)).normalize :=
    compile_eq_ok (firstBadIndent?_of_build succeeds) false
  refine ⟨_, compiled, ?_, ?_, ?_⟩ <;> rw [links_normalize]
  · exact nodup_edgesOf_flow_fullGraph valid distinct
  · rw [nodes, forest_normalize]
    exact along
  intro inOrder named edge
  rw [nodeIds_normalize] at inOrder
  refine (along edge).trans ?_
  rw [← flowsAlong_map_unsized_iff, nodes_fullGraph_eq valid distinct inOrder]
  refine and_iff_left_of_imp ?_
  rintro ⟨first, second, next, -, -, rfl⟩
  have hasId : ∀ node ∈ (bulletsOf lines).map Node.ofLine, node.id ≠ "" :=
    List.forall_mem_map.mpr named
  exact ⟨hasId first (next.subset List.mem_cons_self),
    hasId second (next.subset (List.mem_cons_of_mem _ List.mem_cons_self))⟩

/-- The start of a chain leads to the step below it, and that one to the step after both. -/
theorem flowsAlong_compile_nested :
    let lines : List Line :=
      [{ depth := 0, explicitId := some "a", kind := .flowBreak },
        { depth := 1, explicitId := some "b", kind := .flow },
        { depth := 0, explicitId := some "c", kind := .flow },
        { depth := 0, explicitId := some "d" }]
    build lines = .ok (ofBullets lines) ∧ ((bulletsOf lines).map Line.id).Nodup ∧
      ∃ graph, compile false lines = .ok graph ∧ graph.nodeIds = (bulletsOf lines).map Line.id ∧
        (∀ bullet ∈ bulletsOf lines, bullet.id ≠ "") ∧
        ∀ edge, edge ∈ graph.links.edgesOf .flow ↔
          edge ∈ [⟨"a", "b", .flow, true⟩, ⟨"b", "c", .flow, true⟩] := by
  intro lines
  have succeeds : build lines = .ok (ofBullets lines) := by decide +kernel
  have distinct : ((bulletsOf lines).map Line.id).Nodup := by decide +kernel
  have named : ∀ bullet ∈ bulletsOf lines, bullet.id ≠ "" := by decide +kernel
  obtain ⟨graph, compiled, -, -, inOutline⟩ := flowsAlong_compile succeeds distinct
  have ordered : (compile false lines).map Graph.nodeIds = .ok ((bulletsOf lines).map Line.id) := by
    decide +kernel
  rw [compiled] at ordered
  have inOrder : graph.nodeIds = (bulletsOf lines).map Line.id := Except.ok.inj ordered
  have outline : flowEdgesOf ((bulletsOf lines).map Node.ofLine) =
      [⟨"a", "b", .flow, true⟩, ⟨"b", "c", .flow, true⟩] := by decide +kernel
  refine ⟨succeeds, distinct, graph, compiled, inOrder, named, fun edge => ?_⟩
  rw [inOutline inOrder named edge, ← mem_flowEdgesOf_iff, outline]

/-- A subgraph is drawn before the leaf that precedes it, so the start of a chain in it has that
leaf after it, and not the step that follows in the outline; and nothing leads to a step without
id. -/
theorem not_flowsAlong_compile_arranged :
    let lines : List Line :=
      [{ depth := 0, explicitId := some "a" },
        { depth := 0, explicitId := some "b" },
        { depth := 1, explicitId := some "c", kind := .flowBreak },
        { depth := 0, explicitId := some "d", kind := .flow },
        { depth := 0, kind := .flow }]
    build lines = .ok (ofBullets lines) ∧ ((bulletsOf lines).map Line.id).Nodup ∧
      ∃ graph, compile false lines = .ok graph ∧
        FlowsAlong ((bulletsOf lines).map Node.ofLine) ⟨"c", "d", .flow, true⟩ ∧
        FlowsAlong ((bulletsOf lines).map Node.ofLine) ⟨"d", "", .flow, true⟩ ∧
          graph.links.edgesOf .flow = [] := by
  intro lines
  have legal : firstBadIndent? 0 (bulletsOf lines) = none := by decide +kernel
  have next : flowEdgesOf ((bulletsOf lines).map Node.ofLine) =
      [⟨"c", "d", .flow, true⟩, ⟨"d", "", .flow, true⟩] := by
    decide +kernel
  refine ⟨by decide +kernel, by decide +kernel, _, compile_eq_ok legal false, ?_, ?_,
    by decide +kernel⟩
  · rw [← mem_flowEdgesOf_iff, next]
    exact List.mem_cons_self
  · rw [← mem_flowEdgesOf_iff, next]
    exact List.mem_cons_of_mem _ List.mem_cons_self

end Graph

end OutlineDiagram
