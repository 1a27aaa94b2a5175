/-
This file proves that pruning in stages is pruning at once. A second pruning with more
marks sees only what the first one left, yet it closes every path that the first one
closed, so the forests agree. What stands for an id after both is what the second
table says about the answer of the first: a node that is folded away has the same
outermost folded node as the one that stands for it, and nothing on the way between
the two survived to be marked as hidden. Edges then move to the same ends, and an
edge is dropped as a loop in the end if it is dropped as one on the way. Only an id
that is empty comes between: edges that move to it are dropped, and cannot move on.
-/

import OutlineDiagram.Proofs.Graph.Pruned

namespace OutlineDiagram

/-! ### Forests -/

/-- Whatever closes the paths below one state closes those below another. -/
structure PathState.ClosesWithin (first second : PathState) : Prop where
  /-- What is hidden below the one is hidden below the other. -/
  isHidden : first.isHidden = true → second.isHidden = true
  /-- What is folded away below the one is folded away below the other. -/
  floor : second.floor? = none → first.floor? = none

section Forests

variable {fewFolds fewHides folds hides : IdSet} (moreFolds : ∀ id ∈ fewFolds, id ∈ folds)
  (moreHides : ∀ id ∈ fewHides, id ∈ hides) {first second : PathState}

include moreHides

theorem PathState.ClosesWithin.keeps (within : first.ClosesWithin second) {id : String}
    (kept : second.keeps folds hides id = true) : first.keeps fewFolds fewHides id = true := by
  rw [PathState.keeps, PathState.enter, Bool.and_eq_true, Bool.not_eq_true',
    Option.isNone_iff_eq_none, Bool.or_eq_false_iff] at kept ⊢
  obtain ⟨⟨shown, unmarked⟩, unfolded⟩ := kept
  refine ⟨⟨Bool.eq_false_iff.mpr fun hidden => ?_, Bool.eq_false_iff.mpr fun hidden => ?_⟩,
    within.floor unfolded⟩
  · exact Bool.eq_false_iff.mp shown (within.isHidden hidden)
  · refine Bool.eq_false_iff.mp unmarked (IdSet.contains_iff.mpr (moreHides id ?_))
    exact IdSet.contains_iff.mp hidden

include moreFolds

theorem PathState.ClosesWithin.enter (within : first.ClosesWithin second) (id : String) :
    (first.enter fewFolds fewHides id).ClosesWithin (second.enter folds hides id) where
  isHidden hidden := by
    rw [PathState.enter, Bool.or_eq_true, IdSet.contains_iff] at hidden ⊢
    exact hidden.imp within.isHidden (moreHides id)
  floor unfolded := by
    rw [PathState.enter, Option.or_eq_none_iff] at unfolded ⊢
    obtain ⟨outer, own⟩ := unfolded
    refine ⟨within.floor outer, ?_⟩
    split
    · next folded =>
      rw [if_pos (IdSet.contains_iff.mpr (moreFolds id (IdSet.contains_iff.mp folded)))] at own
      exact absurd own (by simp)
    · rfl

/-- Pruning with more marks what was pruned with some is pruning it with all of them. -/
theorem pruneForest_pruneForest (within : first.ClosesWithin second) (forest : Forest Node) :
    pruneForest folds hides second (pruneForest fewFolds fewHides first forest) =
      pruneForest folds hides second forest := by
  induction forest generalizing first second with
  | nil => rfl
  | cons node below after belowHypothesis afterHypothesis =>
    have later := afterHypothesis within
    have under := belowHypothesis (within.enter moreFolds moreHides node.id)
    rw [pruneForest]
    by_cases kept : first.keeps fewFolds fewHides node.id = true
    · rw [if_pos kept, pruneForest, pruneForest, later, under]
    · have gone : ¬ second.keeps folds hides node.id = true :=
        fun stays => kept (within.keeps moreHides stays)
      rw [if_neg kept, later, pruneForest]
      exact (if_neg gone).symm

end Forests

/-! ### Further marks -/

namespace Graph

/-- The graph with more ids marked as folded and as hidden. -/
def withMarks (folds hides : List String) (graph : Graph) : Graph :=
  { graph with
    foldIds := folds.foldl IdSet.insert graph.foldIds
    hideIds := hides.foldl IdSet.insert graph.hideIds }

theorem withMarks_nil (graph : Graph) : graph.withMarks [] [] = graph := rfl

variable {graph : Graph} {folds hides : List String}

theorem mem_foldIds_withMarks {id : String} :
    id ∈ (graph.withMarks folds hides).foldIds ↔ id ∈ graph.foldIds ∨ id ∈ folds :=
  IdSet.mem_foldl_insert _ _ _

theorem mem_hideIds_withMarks {id : String} :
    id ∈ (graph.withMarks folds hides).hideIds ↔ id ∈ graph.hideIds ∨ id ∈ hides :=
  IdSet.mem_foldl_insert _ _ _

/-- No id is that of a node above a folded node without name, where that one survives. -/
def SparesUnnamed (graph : Graph) (ids : List String) : Prop :=
  "" ∈ graph.foldIds → ∀ path ∈ graph.prune.forest.paths, path.2.id = "" →
    ∀ node ∈ path.1, node.id ∉ ids

instance (graph : Graph) (ids : List String) : Decidable (graph.SparesUnnamed ids) :=
  inferInstanceAs (Decidable ("" ∈ graph.foldIds → ∀ path ∈ graph.prune.forest.paths,
    path.2.id = "" → ∀ node ∈ path.1, node.id ∉ ids))

theorem prunedForest_prune_withMarks (graph : Graph) (folds hides : List String) :
    (graph.prune.withMarks folds hides).prunedForest =
      (graph.withMarks folds hides).prunedForest :=
  pruneForest_pruneForest (fun _ marked => mem_foldIds_withMarks.mpr (Or.inl marked))
    (fun _ marked => mem_hideIds_withMarks.mpr (Or.inl marked))
    ⟨fun hidden => hidden, fun unfolded => unfolded⟩ graph.forest

/-! ### What stands for a node -/

theorem exists_path_of_mem_nodeIds {id : String} (member : id ∈ graph.nodeIds) :
    ∃ path ∈ graph.forest.paths, path.2.id = id := by
  rw [nodeIds, nodes, ← Forest.map_id_paths] at member
  exact List.mem_map.mp member

theorem nodup_ids_paths (distinct : graph.nodeIds.Nodup) :
    (graph.forest.paths.map fun path => path.2.id).Nodup := by
  rw [Forest.map_id_paths]
  exact distinct

/-- Whatever is on a path has a path of its own, which is a part of that one. -/
theorem exists_path_of_mem_way {path : List Node × Node} (member : path ∈ graph.forest.paths)
    {node : Node} (onWay : node ∈ path.2 :: path.1) :
    ∃ above, (above, node) ∈ graph.forest.paths ∧ node :: above <:+ path.2 :: path.1 := by
  rcases List.mem_cons.mp onWay with rfl | isAbove
  · exact ⟨path.1, member, List.suffix_refl _⟩
  · obtain ⟨above, part, before⟩ := Forest.exists_sublist_of_mem_above member isAbove
    exact ⟨above, before.subset List.mem_cons_self, part.trans (List.suffix_cons _ _)⟩

/-- Below a folded node nothing survives, so what survives on a path is not below it. -/
theorem mem_upper_of_mem_way (distinct : graph.nodeIds.Nodup) {path upper : List Node × Node}
    (member : path ∈ graph.forest.paths) (folded : upper.2.id ∈ graph.foldIds)
    (part : upper.2 :: upper.1 <:+ path.1) {node : Node} (onWay : node ∈ path.2 :: path.1)
    (left : node.id ∈ graph.prune.nodeIds) : node ∈ upper.2 :: upper.1 := by
  obtain ⟨above, inside, nodePart⟩ := exists_path_of_mem_way member onWay
  obtain ⟨shown, shownMember, isShown, same⟩ := mem_nodeIds_prune_iff.mp left
  obtain rfl : shown = (above, node) :=
    List.inj_on_of_nodup_map (nodup_ids_paths distinct) shownMember inside same
  -- Both ways lead up from the end of one path, so one of them is a part of the other.
  rcases List.suffix_or_suffix_of_suffix nodePart (part.trans (List.suffix_cons _ _)) with
    higher | lower
  · exact higher.subset List.mem_cons_self
  · rcases List.suffix_cons_iff.mp lower with whole | isAbove
    · rw [whole]
      exact List.mem_cons_self
    · exact absurd folded (isShown.2 _ (isAbove.subset List.mem_cons_self))

/-- Between a folded node and a visible one below it nothing is hidden, also with further marks. -/
theorem exists_hidden_withMarks_iff (folds : List String) (distinct : graph.nodeIds.Nodup)
    (shown : ∀ id ∈ hides, id ∈ graph.prune.nodeIds) {path upper : List Node × Node}
    (member : path ∈ graph.forest.paths) (visible : graph.standsFor? path ≠ none)
    (folded : upper.2.id ∈ graph.foldIds) (part : upper.2 :: upper.1 <:+ path.1) :
    (∃ node ∈ upper.2 :: upper.1, node.id ∈ (graph.withMarks folds hides).hideIds) ↔
      ∃ node ∈ path.2 :: path.1, node.id ∈ (graph.withMarks folds hides).hideIds := by
  constructor
  · rintro ⟨node, onWay, marked⟩
    exact ⟨node, (part.trans (List.suffix_cons _ _)).subset onWay, marked⟩
  · rintro ⟨node, onWay, marked⟩
    refine ⟨node, ?_, marked⟩
    rcases mem_hideIds_withMarks.mp marked with before | further
    · exact absurd (if_pos ⟨node, onWay, before⟩) visible
    -- A node that is hidden only now has survived, so it is not between the two.
    · exact mem_upper_of_mem_way distinct member folded part onWay (shown _ further)

/-- With all marks the same stands for a node as for what stands for it with some of them. -/
theorem standsFor?_withMarks_eq (folds : List String) (distinct : graph.nodeIds.Nodup)
    (shown : ∀ id ∈ hides, id ∈ graph.prune.nodeIds) {path upper : List Node × Node}
    (member : path ∈ graph.forest.paths) (visible : graph.standsFor? path ≠ none)
    (folded : upper.2.id ∈ graph.foldIds) (part : upper.2 :: upper.1 <:+ path.1) :
    (graph.withMarks folds hides).standsFor? upper =
      (graph.withMarks folds hides).standsFor? path := by
  have stillFolded : decide (upper.2.id ∈ (graph.withMarks folds hides).foldIds) = true :=
    decide_eq_true (mem_foldIds_withMarks.mpr (Or.inl folded))
  have outermost :
      (upper.1.filter fun node =>
          node.id ∈ (graph.withMarks folds hides).foldIds).getLast?.getD upper.2 =
        (path.1.filter fun node =>
          node.id ∈ (graph.withMarks folds hides).foldIds).getLast?.getD path.2 :=
    getD_getLast?_filter_of_suffix stillFolded part
  rw [standsFor?, standsFor?, outermost]
  exact if_congr (exists_hidden_withMarks_iff folds distinct shown member visible folded part)
    rfl rfl

theorem standsFor?_withMarks_of_none {path : List Node × Node}
    (gone : graph.standsFor? path = none) :
    (graph.withMarks folds hides).standsFor? path = none := by
  rw [standsFor?, ite_eq_left_iff] at gone
  refine if_pos ?_
  by_contra visible
  refine absurd (gone fun hidden => visible ?_) (by simp)
  exact hidden.imp fun node found => ⟨found.1, mem_hideIds_withMarks.mpr (Or.inl found.2)⟩

/-- The second table, asked about what the first one says, answers as one table with all marks. -/
theorem resolve_bind_resolve (distinct : graph.nodeIds.Nodup)
    (shown : ∀ id ∈ hides, id ∈ graph.prune.nodeIds) (id : String) :
    (graph.rerouteTable.resolve id).bind (graph.prune.withMarks folds hides).rerouteTable.resolve =
      (graph.withMarks folds hides).rerouteTable.resolve id := by
  have leftDistinct : (graph.prune.withMarks folds hides).nodeIds.Nodup :=
    distinct.sublist graph.nodeIds_prune_sublist
  have wholeDistinct : (graph.withMarks folds hides).nodeIds.Nodup := distinct
  by_cases known : id ∈ graph.nodeIds
  · obtain ⟨path, member, rfl⟩ := exists_path_of_mem_nodeIds known
    have whole := resolve_rerouteTable_of_path wholeDistinct member
    rw [resolve_rerouteTable_of_path distinct member, whole]
    cases stands : graph.standsFor? path with
    | none => exact (standsFor?_withMarks_of_none stands).symm
    | some target =>
      obtain ⟨upper, upperMember, isShown, rfl, above⟩ :=
        exists_shows_of_standsFor? member stands
      have left : upper ∈ (graph.prune.withMarks folds hides).forest.paths :=
        mem_paths_prunedForest_iff.mpr ⟨upperMember, isShown⟩
      have visible : graph.standsFor? path ≠ none := by simp [stands]
      refine (resolve_rerouteTable_of_path leftDistinct left).trans ?_
      show (graph.withMarks folds hides).standsFor? upper = _
      rcases above with rfl | ⟨folded, part⟩
      · rfl
      · exact standsFor?_withMarks_eq folds distinct shown member visible folded part
  · have leftUnknown : id ∉ (graph.prune.withMarks folds hides).nodeIds :=
      fun found => known (graph.nodeIds_prune_sublist.subset found)
    rw [resolve_rerouteTable_of_not_mem distinct known,
      resolve_rerouteTable_of_not_mem wholeDistinct known]
    exact resolve_rerouteTable_of_not_mem leftDistinct leftUnknown

/-- An id that a first pruning moves to the empty one stays there with more marks. -/
theorem resolve_withMarks_of_empty (distinct : graph.nodeIds.Nodup)
    (shown : ∀ id ∈ hides, id ∈ graph.prune.nodeIds) (spares : graph.SparesUnnamed folds)
    {id : String} (hasName : id ≠ "") (moved : graph.rerouteTable.resolve id = some "")
    {target : String} (resolved : (graph.withMarks folds hides).rerouteTable.resolve id =
      some target) : target = "" := by
  have known : id ∈ graph.nodeIds := by
    by_contra absent
    rw [resolve_rerouteTable_of_not_mem distinct absent] at moved
    exact hasName (Option.some.inj moved)
  obtain ⟨path, member, rfl⟩ := exists_path_of_mem_nodeIds known
  rw [resolve_rerouteTable_of_path distinct member] at moved
  obtain ⟨upper, upperMember, isShown, isEmpty, above⟩ := exists_shows_of_standsFor? member moved
  rcases above with rfl | ⟨folded, part⟩
  · exact absurd isEmpty hasName
  · have left : upper ∈ graph.prune.forest.paths :=
      mem_paths_prunedForest_iff.mpr ⟨upperMember, isShown⟩
    have clear : (upper.1.filter fun node =>
        node.id ∈ (graph.withMarks folds hides).foldIds) = [] := by
      refine List.filter_eq_nil_iff.mpr fun node isAbove marked => ?_
      rcases mem_foldIds_withMarks.mp (of_decide_eq_true marked) with before | further
      · exact isShown.2 node isAbove before
      · exact spares (isEmpty ▸ folded) upper left isEmpty node isAbove further
    have visible : graph.standsFor? path ≠ none := by simp [moved]
    have same := standsFor?_withMarks_eq folds distinct shown member visible folded part
    have wholeDistinct : (graph.withMarks folds hides).nodeIds.Nodup := distinct
    rw [resolve_rerouteTable_of_path wholeDistinct member, ← same, standsFor?, clear] at resolved
    split at resolved
    · exact absurd resolved (by simp)
    · exact (Option.some.inj resolved).symm.trans isEmpty

end Graph

/-! ### Edges -/

/-- What an edge becomes when links are rerouted: nothing if it is dropped on the way or has an
empty end then. -/
def moved? (table : RerouteTable) (edge : Edge) : Option Edge :=
  (reroute? table edge).filter fun moved => moved.source != "" && moved.destination != ""

theorem moved?_eq_some_iff {table : RerouteTable} {edge moved : Edge} :
    moved? table edge = some moved ↔
      edge.kind ≠ .hierarchy ∧ table.resolve edge.source = some moved.source ∧
        table.resolve edge.destination = some moved.destination ∧
        moved.source ≠ moved.destination ∧ moved.kind = edge.kind ∧ moved.mustRender = true ∧
        moved.source ≠ "" ∧ moved.destination ≠ "" := by
  rw [moved?, Option.filter_eq_some_iff, reroute?_eq_some_iff, Bool.and_eq_true, bne_iff_ne,
    bne_iff_ne]
  simp only [and_assoc]

/-- The edges of rerouted links are what the edges become. -/
theorem edges_reroute_perm (table : RerouteTable) (links : LinkGraph) :
    (links.reroute table).edges.Perm (links.edges.filterMap (moved? table)) := by
  have held := (LinkGraph.holds_addEdges (links.edges.filterMap (reroute? table))).edges_perm
  refine held.trans (List.Perm.of_eq ?_)
  have drawn : ∀ moved ∈ links.edges.filterMap (moved? table),
      { moved with mustRender := true } = moved := by
    intro moved member
    obtain ⟨edge, -, becomes⟩ := List.mem_filterMap.mp member
    rw [← (moved?_eq_some_iff.mp becomes).2.2.2.2.2.1]
  rw [LinkGraph.kept, List.filter_filterMap]
  exact (List.map_congr_left drawn).trans (List.map_id _)

/-- Where two tables answer one after the other as a third one does, so do edges move, unless an id
is empty in between and not in the end. -/
theorem bind_moved?_eq {first second whole : RerouteTable} {edge : Edge}
    (agree : ∀ id, (first.resolve id).bind second.resolve = whole.resolve id)
    (empty : ∀ id ∈ [edge.source, edge.destination], first.resolve id = some "" →
      ∀ target, whole.resolve id = some target → target = "") :
    (moved? first edge).bind (moved? second) = moved? whole edge := by
  refine Option.ext fun moved => ?_
  rw [Option.bind_eq_some_iff, moved?_eq_some_iff, ← agree, ← agree, Option.bind_eq_some_iff,
    Option.bind_eq_some_iff]
  constructor
  · rintro ⟨between, early, late⟩
    obtain ⟨kind, source, destination, -, sameKind, -⟩ := moved?_eq_some_iff.mp early
    obtain ⟨-, further, onward, apart, lastKind, drawn, named⟩ := moved?_eq_some_iff.mp late
    exact ⟨kind, ⟨_, source, further⟩, ⟨_, destination, onward⟩, apart, lastKind.trans sameKind,
      drawn, named⟩
  · rintro ⟨kind, ⟨source, toSource, further⟩, ⟨destination, toDestination, onward⟩, apart,
      sameKind, drawn, hasSource, hasDestination⟩
    refine ⟨⟨source, destination, edge.kind, true⟩, moved?_eq_some_iff.mpr
      ⟨kind, toSource, toDestination, ?_, rfl, rfl, ?_, ?_⟩, moved?_eq_some_iff.mpr
        ⟨kind, further, onward, apart, sameKind, drawn, hasSource, hasDestination⟩⟩
    -- An edge that is a loop on the way is one in the end.
    · intro loop
      have same : source = destination := loop
      rw [same, onward] at further
      exact apart (Option.some.inj further).symm
    · rintro rfl
      refine hasSource (empty edge.source List.mem_cons_self toSource _ ?_)
      rw [← agree, toSource, Option.bind_some, further]
    · rintro rfl
      refine hasDestination (empty edge.destination (by simp) toDestination _ ?_)
      rw [← agree, toDestination, Option.bind_some, onward]

/-! ### Graphs -/

namespace Graph

variable {graph : Graph} {folds hides : List String}

theorem edges_prune_withMarks_perm (distinct : graph.nodeIds.Nodup)
    (named : ∀ edge ∈ graph.links.edges, edge.source ≠ "" ∧ edge.destination ≠ "")
    (shown : ∀ id ∈ hides, id ∈ graph.prune.nodeIds) (spares : graph.SparesUnnamed folds) :
    (graph.prune.withMarks folds hides).prune.links.edges.Perm
      (graph.withMarks folds hides).prune.links.edges := by
  have early : graph.prune.links.edges.Perm
      (graph.links.edges.filterMap (moved? graph.rerouteTable)) :=
    edges_reroute_perm graph.rerouteTable graph.links
  have late : (graph.prune.withMarks folds hides).prune.links.edges.Perm
      (graph.prune.links.edges.filterMap
        (moved? (graph.prune.withMarks folds hides).rerouteTable)) :=
    edges_reroute_perm _ graph.prune.links
  have whole : (graph.withMarks folds hides).prune.links.edges.Perm
      (graph.links.edges.filterMap (moved? (graph.withMarks folds hides).rerouteTable)) :=
    edges_reroute_perm _ graph.links
  have same : (graph.links.edges.filterMap (moved? graph.rerouteTable)).filterMap
      (moved? (graph.prune.withMarks folds hides).rerouteTable) =
        graph.links.edges.filterMap (moved? (graph.withMarks folds hides).rerouteTable) := by
    rw [List.filterMap_filterMap]
    refine List.filterMap_congr fun edge member => ?_
    refine bind_moved?_eq (resolve_bind_resolve distinct shown) fun id isEnd empty target => ?_
    have hasName : id ≠ "" := by
      rcases List.mem_cons.mp isEnd with rfl | isDestination
      · exact (named edge member).1
      · rw [List.mem_singleton.mp isDestination]
        exact (named edge member).2
    exact resolve_withMarks_of_empty distinct shown spares hasName empty
  exact (late.trans (early.filterMap _)).trans ((List.Perm.of_eq same).trans whole.symm)

/-- Pruning in stages is pruning at once: marking further ids after a first pruning and pruning again
leaves the forest that marking them first and pruning once leaves. It leaves the same edges too,
unless edges that moved to a node without name would have to move on. So pruning again without
further marks changes neither forest nor edges. -/
theorem prune_withMarks_prune (graph : Graph) (distinct : graph.nodeIds.Nodup)
    (named : ∀ edge ∈ graph.links.edges, edge.source ≠ "" ∧ edge.destination ≠ "")
    (folds hides : List String) (shown : ∀ id ∈ hides, id ∈ graph.prune.nodeIds) :
    (graph.prune.withMarks folds hides).prune.forest = (graph.withMarks folds hides).prune.forest ∧
      (graph.SparesUnnamed folds → (graph.prune.withMarks folds hides).prune.links.edges.Perm
        (graph.withMarks folds hides).prune.links.edges) ∧
      graph.prune.prune.forest = graph.prune.forest ∧
      graph.prune.prune.links.edges.Perm graph.prune.links.edges := by
  have none : ∀ id ∈ ([] : List String), id ∈ graph.prune.nodeIds :=
    fun _ member => absurd member List.not_mem_nil
  have spares : graph.SparesUnnamed [] := fun _ _ _ _ _ _ => List.not_mem_nil
  have sameForest := graph.prunedForest_prune_withMarks [] []
  have sameEdges := edges_prune_withMarks_perm distinct named none spares
  rw [withMarks_nil, withMarks_nil] at sameForest sameEdges
  exact ⟨graph.prunedForest_prune_withMarks folds hides,
    edges_prune_withMarks_perm distinct named shown, sameForest, sameEdges⟩

/-- An edge moves to a folded node first and to the folded node above it then. -/
theorem prune_withMarks_prune_fold :
    let links : List Edge := [⟨"c", "d", .link, true⟩, ⟨"e", "c", .link, true⟩]
    let graph : Graph :=
      { forest := .cons { id := "a" } (.cons { id := "b" } (.cons { id := "c" } .nil .nil) .nil)
          (.cons { id := "d" } .nil (.cons { id := "e" } .nil .nil))
        links := LinkGraph.addEdges {} links
        foldIds := .ofList ["b"] }
    graph.nodeIds.Nodup ∧
      (∀ edge ∈ graph.links.edges, edge.source ≠ "" ∧ edge.destination ≠ "") ∧
      (∀ id ∈ ["e"], id ∈ graph.prune.nodeIds) ∧
      graph.SparesUnnamed ["a"] ∧
      (graph.prune.withMarks ["a"] ["e"]).prune.forest.toList = [{ id := "a" }, { id := "d" }] ∧
      (graph.prune.withMarks ["a"] ["e"]).prune.links.edges.Perm [⟨"a", "d", .link, true⟩] := by
  intro links graph
  have distinct : graph.nodeIds.Nodup := by decide +kernel
  have named := LinkGraph.named_of_mem_edges_addEdges links
  have shown : ∀ id ∈ ["e"], id ∈ graph.prune.nodeIds := by decide +kernel
  have spares : graph.SparesUnnamed ["a"] := by decide +kernel
  have nodes : (graph.withMarks ["a"] ["e"]).prune.forest.toList =
      [{ id := "a" }, { id := "d" }] := by
    decide +kernel
  have edges : (graph.withMarks ["a"] ["e"]).prune.links.edges = [⟨"a", "d", .link, true⟩] := by
    decide +kernel
  obtain ⟨sameForest, sameEdges, -⟩ :=
    prune_withMarks_prune graph distinct named ["a"] ["e"] shown
  exact ⟨distinct, named, shown, spares, sameForest ▸ nodes, edges ▸ sameEdges spares⟩

/-- An edge that moves to a folded node without name is dropped, so it cannot move on when a node
above that one is folded. -/
theorem prune_withMarks_prune_unnamed :
    let graph : Graph :=
      { forest := .cons { id := "a" } (.cons { id := "" } (.cons { id := "c" } .nil .nil) .nil)
          (.cons { id := "d" } .nil .nil)
        links := LinkGraph.addEdges {} [⟨"c", "d", .link, true⟩]
        foldIds := .ofList [""] }
    graph.nodeIds.Nodup ∧
      (∀ edge ∈ graph.links.edges, edge.source ≠ "" ∧ edge.destination ≠ "") ∧
      (∀ id ∈ ["a"], id ∈ graph.prune.nodeIds) ∧
      (graph.prune.withMarks ["a"] []).prune.links.edges = [] ∧
      (graph.withMarks ["a"] []).prune.links.edges = [⟨"a", "d", .link, true⟩] ∧
      ¬ (graph.prune.withMarks ["a"] []).prune.links.edges.Perm
        (graph.withMarks ["a"] []).prune.links.edges := by
  intro graph
  have staged : (graph.prune.withMarks ["a"] []).prune.links.edges = [] := by decide +kernel
  have whole : (graph.withMarks ["a"] []).prune.links.edges = [⟨"a", "d", .link, true⟩] := by
    decide +kernel
  refine ⟨by decide +kernel, LinkGraph.named_of_mem_edges_addEdges _, by decide +kernel, staged,
    whole, fun same => ?_⟩
  rw [staged, whole] at same
  exact absurd same.length_eq (by simp)

end Graph

end OutlineDiagram
