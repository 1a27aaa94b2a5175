/-
This file says what pruning leaves of a graph. The nodes that are left are those with
no hidden id on their path and no folded id above them, and each keeps its path, so
it keeps its parent and all that is known about it. The walk that fills the table
goes below every node, also below those that are gone; it never finds anything to
keep there, because what a path inherits only ever closes.
-/

import OutlineDiagram.Proofs.Graph.Reroute

namespace OutlineDiagram

/-! ### The walk below nodes that are gone -/

namespace PathState

variable {foldIds hideIds : IdSet} {state : PathState} {id below : String}

/-- What is kept below a node would be kept in the place of the node. -/
theorem keeps_of_keeps_enter
    (kept : (state.enter foldIds hideIds id).keeps foldIds hideIds below = true) :
    state.keeps foldIds hideIds id = true := by
  rw [keeps, Bool.and_eq_true, Bool.not_eq_true', Option.isNone_iff_eq_none] at kept ⊢
  obtain ⟨shown, unfolded⟩ := kept
  rw [enter, Bool.or_eq_false_iff] at shown
  rw [enter, Option.or_eq_none_iff] at unfolded
  exact ⟨shown.1, unfolded.1⟩

end PathState

/-- The forest of the nodes that survive, as the walk makes it that fills the table. It goes below
every node, and it fails at a node that is kept while its parent is not. -/
def attach? (foldIds hideIds : IdSet) : (hasParent : Bool) → PathState → Forest Node →
    Option (Forest Node)
  | _, _, .nil => some .nil
  | hasParent, state, .cons node below after =>
    let isKept := state.keeps foldIds hideIds node.id
    if isKept && !hasParent then none
    else
      (attach? foldIds hideIds isKept (state.enter foldIds hideIds node.id) below).bind
        fun children =>
          (attach? foldIds hideIds hasParent state after).map fun later =>
            if isKept then .cons node children later else later

/-- The walk never fails where nothing is kept without a parent, and it leaves the pruned forest. -/
theorem attach?_eq_some {foldIds hideIds : IdSet} {hasParent : Bool} {state : PathState}
    (forest : Forest Node)
    (parented : ∀ id, state.keeps foldIds hideIds id = true → hasParent = true) :
    attach? foldIds hideIds hasParent state forest =
      some (pruneForest foldIds hideIds state forest) := by
  induction forest generalizing hasParent state with
  | nil => rfl
  | cons node below after belowHypothesis afterHypothesis =>
    -- Nothing is kept below a node that is gone, so there the missing parent is not missed.
    have belowParented : ∀ id,
        (state.enter foldIds hideIds node.id).keeps foldIds hideIds id = true →
          state.keeps foldIds hideIds node.id = true :=
      fun id => PathState.keeps_of_keeps_enter
    have attached : ¬ (state.keeps foldIds hideIds node.id && !hasParent) = true := by
      rw [Bool.and_eq_true, Bool.not_eq_true']
      rintro ⟨kept, orphaned⟩
      exact absurd (parented node.id kept) (by simp [orphaned])
    rw [attach?, if_neg attached, belowHypothesis belowParented, afterHypothesis parented,
      pruneForest]
    rfl

/-! ### Surviving nodes -/

namespace Graph

variable (graph : Graph)

/-- A path leads to a node that survives: nothing on it is hidden, and nothing above its end is
folded. -/
def Shows (path : List Node × Node) : Prop :=
  (∀ node ∈ path.2 :: path.1, node.id ∉ graph.hideIds) ∧ ∀ node ∈ path.1, node.id ∉ graph.foldIds

instance : DecidablePred graph.Shows :=
  fun path => inferInstanceAs (Decidable
    ((∀ node ∈ path.2 :: path.1, node.id ∉ graph.hideIds) ∧
      ∀ node ∈ path.1, node.id ∉ graph.foldIds))

/-- What stands for the node at the end of a path: nothing if a node on the path is hidden, else the
outermost folded node above it, else the node itself. -/
def standsFor? (path : List Node × Node) : Option String :=
  if ∃ node ∈ path.2 :: path.1, node.id ∈ graph.hideIds then none
  else some ((path.1.filter fun node => node.id ∈ graph.foldIds).getLast?.getD path.2).id

variable {graph}

theorem any_contains_map_id (ids : IdSet) (nodes : List Node) :
    (nodes.map Node.id).any ids.contains = true ↔ ∃ node ∈ nodes, node.id ∈ ids := by
  rw [List.any_map, List.any_eq_true]
  exact exists_congr fun node => and_congr_right fun _ => IdSet.contains_iff

theorem survives_eq_decide_shows (path : List Node × Node) :
    PathState.survives graph.foldIds graph.hideIds (path.1.map Node.id, path.2.id) =
      decide (graph.Shows path) := by
  have hidden := any_contains_map_id graph.hideIds (path.2 :: path.1)
  have folded := any_contains_map_id graph.foldIds path.1
  rw [List.map_cons] at hidden
  rw [PathState.survives_eq, Bool.eq_iff_iff, Bool.and_eq_true, Bool.not_eq_true',
    Bool.not_eq_true', ← Bool.not_eq_true, ← Bool.not_eq_true, hidden, folded, decide_eq_true_iff,
    Shows]
  simp only [not_exists, not_and]

/-- The paths of the pruned forest are those that lead to surviving nodes, in their order. -/
theorem paths_prunedForest :
    graph.prunedForest.paths = graph.forest.paths.filter fun path => graph.Shows path := by
  have kept := Forest.pathsFrom_pruneForest graph.foldIds graph.hideIds [] graph.forest
  rw [List.map_nil, PathState.along] at kept
  rw [Forest.paths, prunedForest, kept]
  exact List.filter_congr fun path _ => survives_eq_decide_shows path

theorem mem_paths_prunedForest_iff {path : List Node × Node} :
    path ∈ graph.prunedForest.paths ↔ path ∈ graph.forest.paths ∧ graph.Shows path := by
  rw [paths_prunedForest, List.mem_filter, decide_eq_true_iff]

theorem paths_prunedForest_sublist (graph : Graph) :
    graph.prunedForest.paths.Sublist graph.forest.paths := by
  rw [paths_prunedForest]
  exact List.filter_sublist

theorem nodeIds_prune (graph : Graph) :
    graph.prune.nodeIds = graph.prunedForest.paths.map fun path => path.2.id :=
  (Forest.map_id_paths graph.prunedForest).symm

/-- Pruning keeps an order of ids and makes no id appear twice. -/
theorem nodeIds_prune_sublist (graph : Graph) : graph.prune.nodeIds.Sublist graph.nodeIds := by
  rw [nodeIds_prune, nodeIds, nodes, ← Forest.map_id_paths]
  exact graph.paths_prunedForest_sublist.map _

theorem mem_nodeIds_prune_iff {id : String} :
    id ∈ graph.prune.nodeIds ↔ ∃ path ∈ graph.forest.paths, graph.Shows path ∧ path.2.id = id := by
  rw [nodeIds_prune, List.mem_map]
  simp only [mem_paths_prunedForest_iff, and_assoc]

theorem attach?_forest :
    attach? graph.foldIds graph.hideIds true {} graph.forest = some graph.prunedForest :=
  attach?_eq_some graph.forest fun _ _ => rfl

/-! ### What stands for a node -/

theorem target_along_map_id (path : List Node × Node) :
    (PathState.along graph.foldIds graph.hideIds (path.1.map Node.id)).target graph.foldIds
      graph.hideIds path.2.id = graph.standsFor? path := by
  have hidden := any_contains_map_id graph.hideIds (path.2 :: path.1)
  have folded : (path.1.map Node.id).filter graph.foldIds.contains =
      (path.1.filter fun node => node.id ∈ graph.foldIds).map Node.id := by
    rw [List.filter_map]
    refine congrArg _ (List.filter_congr fun node _ => ?_)
    rw [Function.comp_apply, Bool.eq_iff_iff, IdSet.contains_iff, decide_eq_true_iff]
  rw [List.map_cons] at hidden
  rw [PathState.target_along, folded, List.getLast?_map, Option.getD_map, standsFor?]
  exact if_congr hidden rfl rfl

theorem targetsFrom_paths :
    targetsFrom graph.foldIds graph.hideIds {} graph.forest =
      graph.forest.paths.map fun path => (path.2.id, graph.standsFor? path) := by
  have walked := targetsFrom_eq graph.foldIds graph.hideIds [] graph.forest
  rw [List.map_nil, PathState.along] at walked
  rw [walked]
  exact List.map_congr_left fun path _ => congrArg _ (target_along_map_id path)

/-- What stands for a node survives. It is the node itself, or a folded one above it. -/
theorem exists_shows_of_standsFor? {path : List Node × Node} (member : path ∈ graph.forest.paths)
    {target : String} (stands : graph.standsFor? path = some target) :
    ∃ upper ∈ graph.forest.paths, graph.Shows upper ∧ upper.2.id = target ∧
      (upper = path ∨ upper.2.id ∈ graph.foldIds ∧ upper.2 :: upper.1 <:+ path.1) := by
  rw [standsFor?] at stands
  split at stands
  · exact absurd stands (by simp)
  · next visible =>
    simp only [not_exists, not_and] at visible
    have same := Option.some.inj stands
    cases outer : (path.1.filter fun node => node.id ∈ graph.foldIds).getLast? with
    | none =>
      rw [outer, Option.getD_none] at same
      have unfolded := List.filter_eq_nil_iff.mp (List.getLast?_eq_none_iff.mp outer)
      exact ⟨path, member, ⟨visible, by simpa using unfolded⟩, same, Or.inl rfl⟩
    | some folded =>
      rw [outer, Option.getD_some] at same
      -- The outermost folded node cuts the path in two, and above the cut nothing is folded.
      obtain ⟨inner, ends⟩ := List.getLast?_eq_some_iff.mp outer
      obtain ⟨lower, rest, split, -, last⟩ := List.filter_eq_append_iff.mp ends
      obtain ⟨between, upper, rfl, -, isFolded, clear⟩ := List.filter_eq_cons_iff.mp last
      have part : folded :: upper <:+ path.1 := ⟨lower ++ between, by rw [split, List.append_assoc]⟩
      have onWay := part.trans (List.suffix_cons path.2 path.1)
      have unfolded := List.filter_eq_nil_iff.mp clear
      refine ⟨(upper, folded), ?_, ⟨fun node isOn => visible node (onWay.subset isOn), ?_⟩, same,
        Or.inr ⟨by simpa using isFolded, part⟩⟩
      · rcases Forest.sublist_of_suffix_pathsFrom member part with none | before
        · exact absurd (List.suffix_nil.mp none) (by simp)
        · exact before.subset List.mem_cons_self
      · simpa using unfolded

/-! ### Pruned graphs -/

/-- A forest and a table are what a graph is pruned to. -/
structure PrunesTo (graph : Graph) (forest : Forest Node) (table : RerouteTable) : Prop where
  /-- The nodes in pre-order are the surviving ones of the graph, in their order and unchanged. -/
  toList_eq : forest.toList = (graph.forest.paths.filter fun path => graph.Shows path).map Prod.snd
  /-- Each of them lies below the nodes below which it lay. -/
  paths_eq : forest.paths = graph.forest.paths.filter fun path => graph.Shows path
  /-- The walk that fills the table makes the forest and meets no node without a place to put it. -/
  attach?_eq : attach? graph.foldIds graph.hideIds true {} graph.forest = some forest
  /-- Where no two nodes share an id, the table has one entry for each of the ids. -/
  map_fst_entries_eq : graph.nodeIds.Nodup → table.entries.map Prod.fst = graph.nodeIds
  /-- Where no two nodes share an id, the table answers with what stands for the node. -/
  resolve_eq : graph.nodeIds.Nodup →
    ∀ path ∈ graph.forest.paths, table.resolve path.2.id = graph.standsFor? path

theorem entries_rerouteTable (distinct : graph.nodeIds.Nodup) :
    graph.rerouteTable.entries =
      graph.forest.paths.map fun path => (path.2.id, graph.standsFor? path) := by
  rw [← map_fst_targetsFrom] at distinct
  rw [← targetsFrom_paths, rerouteTable, RerouteTable.ofList, RerouteTable.foldl_put _ distinct]
  rfl

theorem resolve_rerouteTable_of_path (distinct : graph.nodeIds.Nodup) {path : List Node × Node}
    (member : path ∈ graph.forest.paths) :
    graph.rerouteTable.resolve path.2.id = graph.standsFor? path := by
  have way : (path.1.map Node.id, path.2.id) ∈ graph.forest.idPaths := by
    rw [Forest.idPaths_eq]
    exact List.mem_map.mpr ⟨path, member, rfl⟩
  rw [resolve_rerouteTable_of_mem distinct way, ← PathState.target_along, target_along_map_id]

/-- Pruning keeps the surviving nodes where they are, and the table tells what stands for each
node. -/
theorem prunesTo_prunedForest_rerouteTable (graph : Graph) :
    graph.PrunesTo graph.prunedForest graph.rerouteTable where
  toList_eq := by
    rw [← paths_prunedForest, Forest.paths, Forest.map_snd_pathsFrom]
  paths_eq := paths_prunedForest
  attach?_eq := attach?_forest
  map_fst_entries_eq distinct := by
    rw [entries_rerouteTable distinct, List.map_map]
    exact Forest.map_id_paths graph.forest
  resolve_eq distinct _ member := resolve_rerouteTable_of_path distinct member

/-- What is below a folded node moves to it, and nothing stands for a hidden node. -/
theorem prunesTo_prunedForest_rerouteTable_fold :
    let graph : Graph :=
      { forest := .cons { id := "a" } (.cons { id := "b" } (.cons { id := "c" } .nil .nil) .nil)
          (.cons { id := "h" } .nil .nil)
        foldIds := .ofList ["b"]
        hideIds := .ofList ["h"] }
    graph.nodeIds.Nodup ∧ graph.prunedForest.toList = [{ id := "a" }, { id := "b" }] ∧
      graph.rerouteTable.resolve "c" = some "b" ∧ graph.rerouteTable.resolve "h" = none := by
  intro graph
  have distinct : graph.nodeIds.Nodup := by decide +kernel
  have prunes := prunesTo_prunedForest_rerouteTable graph
  refine ⟨distinct, ?_, ?_, ?_⟩
  · rw [prunes.toList_eq]
    decide +kernel
  · have stands := prunes.resolve_eq distinct ([{ id := "b" }, { id := "a" }], { id := "c" })
      (by decide +kernel)
    exact stands.trans (by decide +kernel)
  · have stands := prunes.resolve_eq distinct ([], { id := "h" }) (by decide +kernel)
    exact stands.trans (by decide +kernel)

end Graph

end OutlineDiagram
