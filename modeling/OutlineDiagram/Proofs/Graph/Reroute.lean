/-
This file says what stands for each id of a pruned graph. The table of a walk
answers with what the way to a node says, so for bullets it is the outermost folded
bullet of their chain, or none. A flow edge that is rerouted still leads on in the
full forest: its destination survives, and its source is the node before it or a
folded one above that.
-/

import OutlineDiagram.Proofs.Graph.Implied
import OutlineDiagram.Proofs.Graph.Survivors
import OutlineDiagram.Proofs.Links.Edges

namespace OutlineDiagram

/-! ### Tables -/

namespace RerouteTable

theorem put_of_not_mem {table : RerouteTable} {entry : String × Option String}
    (fresh : entry.1 ∉ table.entries.map Prod.fst) :
    table.put entry = ⟨table.entries ++ [entry]⟩ := by
  have unknown : ¬ (table.entries.any fun known => known.1 == entry.1) = true := by
    intro known
    obtain ⟨other, member, same⟩ := List.any_eq_true.mp known
    exact fresh (List.mem_map.mpr ⟨other, member, eq_of_beq same⟩)
  rw [put, if_neg unknown]

theorem foldl_put (entries : List (String × Option String)) {table : RerouteTable}
    (distinct : ((table.entries ++ entries).map Prod.fst).Nodup) :
    entries.foldl put table = ⟨table.entries ++ entries⟩ := by
  induction entries generalizing table with
  | nil => rw [List.append_nil]; rfl
  | cons first rest inductionHypothesis =>
    have regroup : table.entries ++ first :: rest = (table.entries ++ [first]) ++ rest := by
      rw [List.append_assoc]
      rfl
    have fresh : first.1 ∉ table.entries.map Prod.fst := by
      rw [List.map_append] at distinct
      exact fun member => (List.nodup_append.mp distinct).2.2 _ member _ List.mem_cons_self rfl
    rw [regroup] at distinct ⊢
    rw [List.foldl_cons, put_of_not_mem fresh]
    exact inductionHypothesis distinct

/-- Where no id has two entries, an id is resolved by its entry. -/
theorem resolve_of_mem {entries : List (String × Option String)}
    (distinct : (entries.map Prod.fst).Nodup) {entry : String × Option String}
    (member : entry ∈ entries) : (ofList entries).resolve entry.1 = entry.2 := by
  have table : ofList entries = ⟨entries⟩ := foldl_put entries distinct
  rw [table, resolve, find?_eq_some_of_nodup Prod.fst distinct member]

/-- An id without entry stands for itself. -/
theorem resolve_of_not_mem {entries : List (String × Option String)}
    (distinct : (entries.map Prod.fst).Nodup) {id : String}
    (absent : id ∉ entries.map Prod.fst) : (ofList entries).resolve id = some id := by
  have table : ofList entries = ⟨entries⟩ := foldl_put entries distinct
  have none : entries.find? (fun known => known.1 == id) = none := by
    refine List.find?_eq_none.mpr fun known member same => absent ?_
    exact List.mem_map.mpr ⟨known, member, eq_of_beq same⟩
  rw [table, resolve, none]

end RerouteTable

/-! ### Ways -/

namespace PathState

variable (foldIds hideIds : IdSet)

/-- What stands for a node, by the ids above it. -/
theorem target_along (above : List String) (id : String) :
    (along foldIds hideIds above).target foldIds hideIds id =
      if (id :: above).any hideIds.contains then none
      else some (((above.filter foldIds.contains).getLast?).getD id) := by
  have hidden := isHidden_along foldIds hideIds (id :: above)
  rw [along] at hidden
  rw [target, hidden, floor?_along]

end PathState

theorem targetsFrom_idPaths (foldIds hideIds : IdSet) (forest : Forest Node) :
    targetsFrom foldIds hideIds {} forest = forest.idPaths.map fun way =>
      (way.2, (PathState.along foldIds hideIds way.1).target foldIds hideIds way.2) := by
  have walked := targetsFrom_eq foldIds hideIds [] forest
  rw [List.map_nil, PathState.along] at walked
  rw [walked, Forest.idPaths_eq, List.map_map]
  rfl

namespace Graph

variable {graph : Graph}

theorem map_fst_targetsFrom (graph : Graph) :
    (targetsFrom graph.foldIds graph.hideIds {} graph.forest).map Prod.fst = graph.nodeIds := by
  rw [targetsFrom_idPaths, List.map_map, nodeIds, nodes, ← Forest.map_snd_idPaths]
  rfl

/-- The table answers for the ids of the nodes what their ways say. -/
theorem resolve_rerouteTable_of_mem (distinct : graph.nodeIds.Nodup) {above : List String}
    {id : String} (way : (above, id) ∈ graph.forest.idPaths) :
    graph.rerouteTable.resolve id =
      if (id :: above).any graph.hideIds.contains then none
      else some (((above.filter graph.foldIds.contains).getLast?).getD id) := by
  rw [← PathState.target_along graph.foldIds]
  rw [← map_fst_targetsFrom] at distinct
  have member : (id, (PathState.along graph.foldIds graph.hideIds above).target graph.foldIds
      graph.hideIds id) ∈ targetsFrom graph.foldIds graph.hideIds {} graph.forest := by
    rw [targetsFrom_idPaths]
    exact List.mem_map.mpr ⟨_, way, rfl⟩
  exact RerouteTable.resolve_of_mem distinct member

theorem resolve_rerouteTable_of_not_mem (distinct : graph.nodeIds.Nodup) {id : String}
    (absent : id ∉ graph.nodeIds) : graph.rerouteTable.resolve id = some id := by
  rw [← map_fst_targetsFrom] at distinct absent
  exact RerouteTable.resolve_of_not_mem distinct absent

end Graph

/-- An edge is rerouted when something stands for both ends, and not the same. -/
theorem reroute?_eq_some_iff {table : RerouteTable} {edge moved : Edge} :
    reroute? table edge = some moved ↔
      edge.kind ≠ .hierarchy ∧ table.resolve edge.source = some moved.source ∧
        table.resolve edge.destination = some moved.destination ∧
        moved.source ≠ moved.destination ∧ moved.kind = edge.kind ∧ moved.mustRender = true := by
  rw [reroute?]
  by_cases drops : edge.kind = .hierarchy
  · rw [if_pos drops]
    exact ⟨fun none => absurd none (by simp), fun kept => absurd drops kept.1⟩
  · rw [if_neg drops]
    cases table.resolve edge.source with
    | none => simp
    | some source =>
      cases table.resolve edge.destination with
      | none => simp
      | some destination =>
        by_cases loop : source = destination
        · dsimp only
          rw [if_pos (beq_iff_eq.mpr loop)]
          refine ⟨fun none => absurd none (by simp), ?_⟩
          rintro ⟨-, fromSource, fromDestination, apart, -⟩
          rw [← Option.some.inj fromSource, ← Option.some.inj fromDestination] at apart
          exact absurd loop apart
        · dsimp only
          rw [if_neg (fun same => loop (eq_of_beq same))]
          constructor
          · intro same
            rw [← Option.some.inj same]
            exact ⟨drops, rfl, rfl, loop, rfl, rfl⟩
          · rintro ⟨-, fromSource, fromDestination, -, kind, drawn⟩
            rw [Option.some.inj fromSource, Option.some.inj fromDestination, ← kind, ← drawn]

/-! ### Flow edges on other ways -/

section Outermost

variable {α : Type} {test : α → Bool} {short long : List α} {id value : α}

theorem getLast?_filter_of_suffix (part : short <:+ long)
    (last : (short.filter test).getLast? = some value) :
    (long.filter test).getLast? = some value := by
  obtain ⟨front, rfl⟩ := part
  rw [List.filter_append, List.getLast?_append, last]
  rfl

/-- The last chosen member of a list is the one chosen from its tail, or else its head. -/
theorem getD_getLast?_filter (last : ((id :: short).filter test).getLast? = some value) :
    (short.filter test).getLast?.getD id = value := by
  cases further : (short.filter test).getLast? with
  | some outer =>
    have whole := getLast?_filter_of_suffix (List.suffix_cons id short) further
    rw [last] at whole
    exact (Option.some.inj whole).symm
  | none =>
    have empty : short.filter test = [] := List.getLast?_eq_none_iff.mp further
    rw [List.filter_cons, empty] at last
    split at last
    · exact Option.some.inj last
    · exact absurd last (by simp)

/-- A chosen member has the outermost chosen member of whatever is below it. -/
theorem getD_getLast?_filter_of_suffix {below : α} (chosen : test id = true)
    (part : id :: short <:+ long) :
    (short.filter test).getLast?.getD id = (long.filter test).getLast?.getD below := by
  have isChosen : id ∈ (id :: short).filter test :=
    List.mem_filter.mpr ⟨List.mem_cons_self, chosen⟩
  cases last : ((id :: short).filter test).getLast? with
  | none =>
    rw [List.getLast?_eq_none_iff.mp last] at isChosen
    exact absurd isChosen List.not_mem_nil
  | some outer =>
    rw [getD_getLast?_filter last, getLast?_filter_of_suffix part last, Option.getD_some]

/-- Where a way branches off from another one and the outermost chosen members differ, it has none:
one that is chosen above both would be the outermost one of both. -/
theorem filter_eq_nil_of_branches {branch source destination : α}
    (branches : short <:+ id :: long)
    (fromSource : (long.filter test).getLast?.getD id = source)
    (fromDestination : (short.filter test).getLast?.getD branch = destination)
    (apart : source ≠ destination) : short.filter test = [] := by
  rw [← List.getLast?_eq_none_iff]
  cases outer : (short.filter test).getLast? with
  | none => rfl
  | some folded =>
    have same := getD_getLast?_filter (getLast?_filter_of_suffix branches outer)
    rw [outer, Option.getD_some] at fromDestination
    exact absurd (fromSource.symm.trans (same.trans fromDestination)) apart

end Outermost

namespace Forest

/-- Whatever is on the way to a value stands at the end of an earlier path. -/
theorem exists_sublist_of_mem_above {forest : Forest Node} {path : List Node × Node}
    (member : path ∈ forest.paths) {node : Node} (isAbove : node ∈ path.1) :
    ∃ upper, node :: upper <:+ path.1 ∧ [(upper, node), path].Sublist forest.paths := by
  obtain ⟨lower, upper, split⟩ := List.append_of_mem isAbove
  have part : node :: upper <:+ path.1 := ⟨lower, split.symm⟩
  refine ⟨upper, part, ?_⟩
  rcases sublist_of_suffix_pathsFrom member part with none | sublist
  · exact absurd (List.suffix_nil.mp none) (by simp)
  · exact sublist

/-- If a node leads on to a later one, so does what is on its way and not above that one. -/
theorem LeadsOn.of_above {paths : List (List Node × Node)} {first second : List Node × Node}
    (leads : LeadsOn paths first second) (order : paths.idxOf first < paths.idxOf second)
    {upper : List Node} {node : Node} (part : node :: upper <:+ first.1)
    (earlier : paths.idxOf (upper, node) < paths.idxOf first) (notAbove : node ∉ second.1) :
    LeadsOn paths (upper, node) second := by
  have within : node :: upper <:+ first.2 :: first.1 := part.trans (List.suffix_cons _ _)
  refine ⟨leads.isStep, ?_, fun onWay => leads.isNew (within.subset onWay),
    fun _ _ _ => Nat.lt_trans earlier order⟩
  rcases List.suffix_or_suffix_of_suffix leads.branches within with shorter | longer
  · exact shorter
  · exact absurd (longer.subset List.mem_cons_self) notAbove

end Forest

namespace Graph

variable {graph : Graph}

theorem outermost_of_resolve (distinct : graph.nodeIds.Nodup) {path : List Node × Node}
    (member : path ∈ graph.forest.paths) {target : String}
    (resolved : graph.rerouteTable.resolve path.2.id = some target) :
    ((path.1.map Node.id).filter graph.foldIds.contains).getLast?.getD path.2.id = target := by
  have way : (path.1.map Node.id, path.2.id) ∈ graph.forest.idPaths := by
    rw [Forest.idPaths_eq]
    exact List.mem_map_of_mem member
  rw [resolve_rerouteTable_of_mem distinct way] at resolved
  split at resolved
  · exact absurd resolved (by simp)
  · exact Option.some.inj resolved

/-- A flow edge that is rerouted leads on in the forest that is walked. -/
theorem leadsOn_of_reroute? (distinct : graph.nodeIds.Nodup) {edge moved : Edge}
    (member : edge ∈ flowEdges graph.forest)
    (rerouted : reroute? graph.rerouteTable edge = some moved) :
    ∃ first ∈ graph.forest.paths, ∃ second ∈ graph.forest.paths,
      moved = ⟨first.2.id, second.2.id, .flow, true⟩ ∧
        Forest.LeadsOn graph.forest.paths first second := by
  have nodesDistinct : graph.forest.toList.Nodup := distinct.of_map Node.id
  have pathsDistinct : graph.forest.paths.Nodup := by
    rw [← Forest.map_snd_pathsFrom []] at nodesDistinct
    exact nodesDistinct.of_map Prod.snd
  obtain ⟨first, second, pair, rfl, isStep, branches, isNew⟩ :=
    Forest.exists_of_mem_flowEdges nodesDistinct member
  have firstMember := pair.subset List.mem_cons_self
  have secondMember := pair.subset (List.mem_cons_of_mem _ List.mem_cons_self)
  have order := idxOf_lt_idxOf_of_sublist pathsDistinct pair
  have leads : Forest.LeadsOn graph.forest.paths first second :=
    ⟨isStep, branches, isNew, fun _ _ _ => order⟩
  obtain ⟨-, fromFirst, fromSecond, apart, kind, drawn⟩ := reroute?_eq_some_iff.mp rerouted
  have source := outermost_of_resolve distinct firstMember fromFirst
  have destination := outermost_of_resolve distinct secondMember fromSecond
  -- If the destination is folded away, so is the node before it, into the same one.
  have unfolded : (second.1.map Node.id).filter graph.foldIds.contains = [] :=
    filter_eq_nil_of_branches (branches.map Node.id) source destination apart
  rw [unfolded] at destination
  have movedIs : ∀ id, moved.source = id → moved = ⟨id, second.2.id, .flow, true⟩ := by
    rintro id rfl
    cases moved
    simp_all
  cases outer : ((first.1.map Node.id).filter graph.foldIds.contains).getLast? with
  | none =>
    rw [outer] at source
    exact ⟨first, firstMember, second, secondMember, movedIs _ source.symm, leads⟩
  | some id =>
    rw [outer] at source
    obtain ⟨inside, folded⟩ := List.mem_filter.mp (List.mem_of_getLast? outer)
    obtain ⟨node, isAbove, rfl⟩ := List.mem_map.mp inside
    obtain ⟨upper, part, before⟩ := Forest.exists_sublist_of_mem_above firstMember isAbove
    have notAbove : node ∉ second.1 := fun above =>
      List.filter_eq_nil_iff.mp unfolded _ (List.mem_map_of_mem above) folded
    exact ⟨(upper, node), before.subset List.mem_cons_self, second, secondMember,
      movedIs _ source.symm, leads.of_above order part
        (idxOf_lt_idxOf_of_sublist pathsDistinct before) notAbove⟩

end Graph

/-! ### Bullets -/

/-- What stands for an id when bullets are pruned. An id that no bullet has stands for itself, and
nothing stands for one that is hidden or below a hidden bullet. For any other the outermost folded
bullet above it stands, if there is one. -/
def standIn? (bullets : List Line) (id : String) : Option String :=
  match (withChains [] bullets).find? fun place => place.2.id == id with
  | none => some id
  | some (above, bullet) =>
    if (bullet :: above).any fun other => other.visibility == .hide then none
    else
      some ((((above.filter fun other => other.visibility == .fold).getLast?).map Line.id).getD id)

/-- The graph of bullets with its implied edges, before anything is pruned. -/
def fullGraph (bullets : List Line) : Graph := (Graph.ofBullets bullets).drawn false

section Bullets

variable {bullets : List Line}

theorem standIn?_of_place (distinct : (bullets.map Line.id).Nodup) {above : List Line}
    {bullet : Line} (place : (above, bullet) ∈ withChains [] bullets) :
    standIn? bullets bullet.id =
      if (bullet :: above).any fun other => other.visibility == .hide then none
      else some ((((above.filter fun other => other.visibility == .fold).getLast?).map
        Line.id).getD bullet.id) := by
  rw [← map_id_withChains []] at distinct
  rw [standIn?, find?_eq_some_of_nodup (fun place => place.2.id) distinct place]

theorem standIn?_of_not_mem {id : String} (absent : id ∉ bullets.map Line.id) :
    standIn? bullets id = some id := by
  have none : ((withChains [] bullets).find? fun place => place.2.id == id) = none := by
    refine List.find?_eq_none.mpr fun place member same => absent ?_
    rw [← map_id_withChains []]
    exact List.mem_map.mpr ⟨place, member, eq_of_beq same⟩
  rw [standIn?, none]

theorem idPaths_fullGraph_perm (valid : ∀ line ∈ bullets, line.isBullet = true) :
    (fullGraph bullets).forest.idPaths.Perm
      ((withChains [] bullets).map fun place => (place.1.map Line.id, place.2.id)) := by
  rw [← Forest.idPaths_nest valid]
  exact Graph.idPaths_drawn_perm false (Graph.ofBullets bullets)

theorem nodeIds_fullGraph_perm (valid : ∀ line ∈ bullets, line.isBullet = true) :
    (fullGraph bullets).nodeIds.Perm (bullets.map Line.id) := by
  have ids := (idPaths_fullGraph_perm valid).map Prod.snd
  rw [Forest.map_snd_idPaths, List.map_map] at ids
  exact ids.trans (List.Perm.of_eq (map_id_withChains [] bullets))

/-- The table that prunes bullets answers with what stands for them. -/
theorem resolve_rerouteTable_eq (valid : ∀ line ∈ bullets, line.isBullet = true)
    (distinct : (bullets.map Line.id).Nodup) (id : String) :
    (fullGraph bullets).rerouteTable.resolve id = standIn? bullets id := by
  have nodesDistinct := (nodeIds_fullGraph_perm valid).nodup_iff.mpr distinct
  rw [standIn?]
  cases found : (withChains [] bullets).find? fun place => place.2.id == id with
  | none =>
    refine Graph.resolve_rerouteTable_of_not_mem nodesDistinct fun member => ?_
    rw [(nodeIds_fullGraph_perm valid).mem_iff, ← map_id_withChains []] at member
    obtain ⟨place, inside, same⟩ := List.mem_map.mp member
    exact List.find?_eq_none.mp found place inside (beq_iff_eq.mpr same)
  | some place =>
    obtain ⟨above, bullet⟩ := place
    have inside := List.mem_of_find?_eq_some found
    have passes := List.find?_some found
    obtain rfl : bullet.id = id := eq_of_beq passes
    have way : (above.map Line.id, bullet.id) ∈
        (fullGraph bullets).forest.idPaths :=
      (idPaths_fullGraph_perm valid).mem_iff.mpr (List.mem_map.mpr ⟨_, inside, rfl⟩)
    have members := mem_bullets_of_mem_place inside
    have hidden := any_contains_markedIds distinct members .hide
    have folded := filter_contains_markedIds distinct
      (fun other member => members other (List.mem_cons_of_mem _ member)) .fold
    rw [List.map_cons] at hidden
    rw [Graph.resolve_rerouteTable_of_mem nodesDistinct way]
    refine (congrArg₂ (fun isHidden folds => if isHidden = true then none
      else some ((List.getLast? folds).getD bullet.id)) hidden folded).trans ?_
    rw [List.getLast?_map]

end Bullets

end OutlineDiagram
