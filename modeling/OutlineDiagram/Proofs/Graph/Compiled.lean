/-
This file says which edges the passes of a compilation leave: the links that were
written, between what stands for their ends, and the edges implied by the final
forest and, for steps of a process, by the full one. Implied edges are never
opposite to each other, so only links can meet their opposite.
-/

import OutlineDiagram.Proofs.Graph.Pruned

namespace OutlineDiagram

/-! ### Implied edges -/

/-- An edge is implied by the shape of an outline: it leads on in pre-order, or it leads from a step
to one that may follow. -/
inductive IsImplied (ids : List String) (paths : List (List Node × Node)) : Edge → Prop where
  /-- A hierarchy edge. -/
  | hierarchy {source destination : String} (onward : [source, destination].Sublist ids) :
    IsImplied ids paths ⟨source, destination, .hierarchy, true⟩
  /-- A flow edge. -/
  | flow {first second : List Node × Node} (firstMember : first ∈ paths)
    (secondMember : second ∈ paths) (leads : Forest.LeadsOn paths first second) :
    IsImplied ids paths ⟨first.2.id, second.2.id, .flow, true⟩

namespace IsImplied

variable {ids : List String} {paths : List (List Node × Node)} {edge : Edge}

theorem not_link (implied : IsImplied ids paths edge) :
    edge.kind ≠ .link ∧ edge.kind ≠ .bilink := by
  cases implied <;> exact ⟨by simp, by simp⟩

theorem mustRender (implied : IsImplied ids paths edge) : edge.mustRender = true := by
  cases implied <;> rfl

/-- An implied edge is no loop. -/
theorem ne (implied : IsImplied ids paths edge) (idsDistinct : ids.Nodup)
    (pathsDistinct : (paths.map fun path => path.2.id).Nodup) : edge.source ≠ edge.destination := by
  cases implied with
  | hierarchy onward =>
    have pair := idsDistinct.sublist onward
    exact fun same => (List.nodup_cons.mp pair).1 (List.mem_singleton.mpr same)
  | flow firstMember secondMember leads =>
    intro same
    have equal := List.inj_on_of_nodup_map pathsDistinct firstMember secondMember same
    rw [equal] at leads
    exact leads.isNew List.mem_cons_self

/-- Implied edges are not opposite to each other. -/
theorem asymm (implied : IsImplied ids paths edge) (idsDistinct : ids.Nodup)
    (pathsDistinct : (paths.map fun path => path.2.id).Nodup) :
    ¬ IsImplied ids paths edge.flip := by
  intro opposite
  generalize known : edge.flip = back at opposite
  cases implied with
  | hierarchy onward =>
    cases opposite with
    | hierarchy backward =>
      obtain ⟨rfl, rfl, -⟩ := Edge.mk.inj known
      exact Nat.lt_asymm (idxOf_lt_idxOf_of_sublist idsDistinct onward)
        (idxOf_lt_idxOf_of_sublist idsDistinct backward)
    | flow => exact absurd (congrArg Edge.kind known) (by simp [Edge.flip])
  | flow firstMember secondMember leads =>
    cases opposite with
    | hierarchy => exact absurd (congrArg Edge.kind known) (by simp [Edge.flip])
    | flow backMember forthMember leadsBack =>
      have source := congrArg Edge.source known
      have destination := congrArg Edge.destination known
      have one := List.inj_on_of_nodup_map pathsDistinct secondMember backMember source
      have two := List.inj_on_of_nodup_map pathsDistinct firstMember forthMember destination
      subst one two
      exact leads.asymm leadsBack

end IsImplied

/-- The edges implied by a forest, as they are added to a graph. -/
def impliedEdges (forest : Forest Node) : List Edge :=
  LinkGraph.kept (hierarchyEdges .root forest) ++ LinkGraph.kept (flowEdges forest)

theorem drawn_of_mem_hierarchyEdges {forest : Forest Node} :
    ∀ edge ∈ hierarchyEdges .root forest, edge.mustRender = true :=
  fun _ member => (sublist_of_mem_hierarchyEdgesFrom member).2.1

theorem drawn_of_mem_flowEdges {forest : Forest Node} :
    ∀ edge ∈ flowEdges forest, edge.mustRender = true := by
  intro edge member
  obtain ⟨_, _, _, _, rfl⟩ := exists_nodes_of_mem_flowEdges member
  rfl

/-- A hierarchy edge that is added leads on in pre-order. Only the node above all trees is not in the
forest, and its id is empty. -/
theorem sublist_of_mem_kept_hierarchyEdges {forest : Forest Node} {edge : Edge}
    (member : edge ∈ LinkGraph.kept (hierarchyEdges .root forest)) :
    [edge.source, edge.destination].Sublist (forest.toList.map Node.id) := by
  obtain ⟨inHierarchy, hasSource, -⟩ :=
    (LinkGraph.mem_kept_iff drawn_of_mem_hierarchyEdges).mp member
  have onward := (sublist_of_mem_hierarchyEdgesFrom inHierarchy).2.2
  rcases List.sublist_cons_iff.mp onward with below | ⟨rest, same, -⟩
  · exact below
  · exact absurd (List.cons.inj same).1 hasSource

/-- An implied edge joins nodes of the forest. -/
theorem ends_of_mem_impliedEdges {forest : Forest Node} {edge : Edge}
    (member : edge ∈ impliedEdges forest) :
    edge.source ∈ forest.toList.map Node.id ∧ edge.destination ∈ forest.toList.map Node.id := by
  rcases List.mem_append.mp member with isHierarchy | isFlow
  · have inside := (sublist_of_mem_kept_hierarchyEdges isHierarchy).subset
    exact ⟨inside List.mem_cons_self, inside (List.mem_cons_of_mem _ List.mem_cons_self)⟩
  · obtain ⟨inFlow, -⟩ := (LinkGraph.mem_kept_iff drawn_of_mem_flowEdges).mp isFlow
    obtain ⟨first, firstMember, second, secondMember, rfl⟩ := exists_nodes_of_mem_flowEdges inFlow
    exact ⟨List.mem_map_of_mem firstMember, List.mem_map_of_mem secondMember⟩

theorem isImplied_of_mem_impliedEdges {forest : Forest Node} {paths : List (List Node × Node)}
    (distinct : forest.toList.Nodup) (inside : ∀ path ∈ forest.paths, path ∈ paths)
    (related : forest.paths.Pairwise
      (Forest.RelateSteps fun one two => paths.idxOf one < paths.idxOf two))
    {edge : Edge} (member : edge ∈ impliedEdges forest) :
    IsImplied (forest.toList.map Node.id) paths edge := by
  rcases List.mem_append.mp member with isHierarchy | isFlow
  · have onward := sublist_of_mem_kept_hierarchyEdges isHierarchy
    obtain ⟨inHierarchy, -⟩ :=
      (LinkGraph.mem_kept_iff drawn_of_mem_hierarchyEdges).mp isHierarchy
    obtain ⟨kind, isDrawn, -⟩ := sublist_of_mem_hierarchyEdgesFrom inHierarchy
    obtain ⟨source, destination, _, _⟩ := edge
    dsimp only at kind isDrawn
    subst kind isDrawn
    exact .hierarchy onward
  · obtain ⟨inFlow, -⟩ := (LinkGraph.mem_kept_iff drawn_of_mem_flowEdges).mp isFlow
    obtain ⟨first, firstMember, second, secondMember, rfl, leads⟩ :=
      Forest.leadsOn_of_mem_flowEdges distinct related inFlow
    exact .flow (inside first firstMember) (inside second secondMember) leads

/-! ### Written links -/

/-- A bullet links a source to a destination. -/
def Line.Authors (bullet : Line) (source destination : String) : Prop :=
  source ≠ destination ∧
    (source ∈ bullet.idsIn ∧ destination = bullet.id ∨
      source = bullet.id ∧ destination ∈ bullet.idsOut)

theorem mem_authoredLinks_iff {bullet : Line} {edge : Edge} :
    edge ∈ authoredLinks bullet ↔
      bullet.Authors edge.source edge.destination ∧ edge.kind = .link ∧ edge.mustRender = true := by
  rw [authoredLinks, List.mem_append, List.mem_map, List.mem_map]
  constructor
  · rintro (⟨id, member, rfl⟩ | ⟨id, member, rfl⟩)
    · obtain ⟨inside, different⟩ := List.mem_filter.mp member
      exact ⟨⟨by simpa using different, Or.inl ⟨inside, rfl⟩⟩, rfl, rfl⟩
    · obtain ⟨inside, different⟩ := List.mem_filter.mp member
      exact ⟨⟨Ne.symm (by simpa using different), Or.inr ⟨rfl, inside⟩⟩, rfl, rfl⟩
  · obtain ⟨source, destination, kind, drawn⟩ := edge
    rintro ⟨⟨different, written⟩, kindIs, drawnIs⟩
    dsimp only at different written kindIs drawnIs
    subst kindIs drawnIs
    rcases written with ⟨inside, rfl⟩ | ⟨rfl, inside⟩
    · exact Or.inl ⟨source, List.mem_filter.mpr ⟨inside, by simpa using different⟩, rfl⟩
    · exact Or.inr ⟨destination, List.mem_filter.mpr ⟨inside, by simpa using different.symm⟩, rfl⟩

/-- A link between two ids is written somewhere, and both ids are names. -/
def Links (bullets : List Line) (source destination : String) : Prop :=
  (∃ bullet ∈ bullets, bullet.Authors source destination) ∧ source ≠ "" ∧ destination ≠ ""

theorem mem_kept_authoredLinks_iff {bullets : List Line} {edge : Edge} :
    edge ∈ LinkGraph.kept (bullets.flatMap authoredLinks) ↔
      Links bullets edge.source edge.destination ∧ edge.kind = .link ∧ edge.mustRender = true := by
  have drawn : ∀ other ∈ bullets.flatMap authoredLinks, other.mustRender = true := by
    intro other member
    obtain ⟨bullet, _, inside⟩ := List.mem_flatMap.mp member
    exact (mem_authoredLinks_iff.mp inside).2.2
  rw [LinkGraph.mem_kept_iff drawn, List.mem_flatMap, Links]
  constructor
  · rintro ⟨⟨bullet, member, inside⟩, ends⟩
    obtain ⟨authors, kind, isDrawn⟩ := mem_authoredLinks_iff.mp inside
    exact ⟨⟨⟨bullet, member, authors⟩, ends⟩, kind, isDrawn⟩
  · rintro ⟨⟨⟨bullet, member, authors⟩, ends⟩, kind, isDrawn⟩
    exact ⟨⟨bullet, member, mem_authoredLinks_iff.mpr ⟨authors, kind, isDrawn⟩⟩, ends⟩

/-- What stands for an id in a graph that is pruned or not. -/
def representative? (prune : Bool) (bullets : List Line) (id : String) : Option String :=
  if prune then standIn? bullets id else some id

/-- Some written link joins what two ids stand for. -/
def Carries (prune : Bool) (bullets : List Line) (source destination : String) : Prop :=
  source ≠ destination ∧ ∃ first last, Links bullets first last ∧
    representative? prune bullets first = some source ∧
      representative? prune bullets last = some destination

theorem standIn?_ne_empty {bullets : List Line} (named : ∀ bullet ∈ bullets, bullet.id ≠ "")
    {id target : String} (hasName : id ≠ "") (stands : standIn? bullets id = some target) :
    target ≠ "" := by
  rw [standIn?] at stands
  split at stands
  · rwa [← Option.some.inj stands]
  · rename_i above bullet found
    have members := mem_bullets_of_mem_place (List.mem_of_find?_eq_some found)
    split at stands
    · exact absurd stands (by simp)
    · rw [← Option.some.inj stands]
      cases outer : (above.filter fun other => other.visibility == .fold).getLast? with
      | none => exact hasName
      | some folded =>
        have isAbove := (List.mem_filter.mp (List.mem_of_getLast? outer)).1
        exact named folded (members folded (List.mem_cons_of_mem _ isAbove))

/-! ### Edges of a compiled graph -/

/-- The graph of bullets without what is hidden or folded away. -/
def prunedGraph (bullets : List Line) : Graph := (Graph.ofBullets bullets).drawn true

/-- The edges that the full graph holds. -/
def fullEdges (bullets : List Line) : List Edge :=
  LinkGraph.kept (bullets.flatMap authoredLinks) ++ impliedEdges (fullGraph bullets).forest

/-- The edges that the pruned graph holds. -/
def prunedEdges (bullets : List Line) : List Edge :=
  LinkGraph.kept ((fullGraph bullets).links.edges.filterMap
      (reroute? (fullGraph bullets).rerouteTable)) ++
    impliedEdges (prunedGraph bullets).forest

theorem prunedGraph_eq (bullets : List Line) :
    prunedGraph bullets = (fullGraph bullets).prune.withImpliedEdges := rfl

theorem forest_prunedGraph (bullets : List Line) :
    (prunedGraph bullets).forest = (fullGraph bullets).prunedForest.arrange := by
  rw [prunedGraph_eq]
  rfl

/-- Drawing implied edges adds those of the arranged forest to the edges that a graph holds. -/
theorem holds_withImpliedEdges {graph : Graph} {added : List Edge}
    (holds : graph.links.Holds added) :
    graph.withImpliedEdges.links.Holds (added ++ impliedEdges graph.withImpliedEdges.forest) := by
  have drawn := (holds.addEdges (hierarchyEdges .root graph.forest.arrange)).addEdges
    (flowEdges graph.forest.arrange)
  rw [List.append_assoc] at drawn
  exact drawn

theorem holds_fullEdges (bullets : List Line) :
    (fullGraph bullets).links.Holds (fullEdges bullets) := by
  have written : (Graph.ofBullets bullets).withSizes.links.Holds
      (LinkGraph.kept (bullets.flatMap authoredLinks)) := LinkGraph.holds_addEdges _
  exact holds_withImpliedEdges written

theorem holds_prunedEdges (bullets : List Line) :
    (prunedGraph bullets).links.Holds (prunedEdges bullets) := by
  have moved : (fullGraph bullets).prune.links.Holds
      (LinkGraph.kept ((fullGraph bullets).links.edges.filterMap
        (reroute? (fullGraph bullets).rerouteTable))) := LinkGraph.holds_addEdges _
  rw [prunedEdges, prunedGraph_eq]
  exact holds_withImpliedEdges moved

section Compiled

variable {bullets : List Line} (valid : ∀ line ∈ bullets, line.isBullet = true)
  (distinct : (bullets.map Line.id).Nodup)

include valid distinct

theorem nodup_nodeIds_fullGraph : (fullGraph bullets).nodeIds.Nodup :=
  (nodeIds_fullGraph_perm valid).nodup_iff.mpr distinct

theorem nodup_ids_prunedForest :
    ((fullGraph bullets).prunedForest.toList.map Node.id).Nodup :=
  (nodup_nodeIds_fullGraph valid distinct).sublist (fullGraph bullets).nodeIds_prune_sublist

theorem nodup_nodeIds_prunedGraph : (prunedGraph bullets).nodeIds.Nodup := by
  have ids := nodup_ids_prunedForest valid distinct
  have perm := (Forest.paths_arrange_perm (fullGraph bullets).prunedForest).map
    fun path => path.2.id
  rw [Forest.map_id_paths, Forest.map_id_paths, ← forest_prunedGraph] at perm
  exact perm.nodup_iff.mpr ids

theorem nodup_paths_fullGraph :
    ((fullGraph bullets).forest.paths.map fun path => path.2.id).Nodup := by
  rw [Forest.map_id_paths]
  exact nodup_nodeIds_fullGraph valid distinct

/-- In the full forest steps beside each other have the order of their places. -/
theorem relateSteps_fullGraph : (fullGraph bullets).forest.paths.Pairwise
    (Forest.RelateSteps fun one two =>
      (fullGraph bullets).forest.paths.idxOf one < (fullGraph bullets).forest.paths.idxOf two) :=
  (pairwise_idxOf_lt ((nodup_paths_fullGraph valid distinct).of_map _)).imp
    fun {_ _} less _ _ _ => less

theorem isImplied_of_mem_full {edge : Edge}
    (member : edge ∈ impliedEdges (fullGraph bullets).forest) :
    IsImplied (fullGraph bullets).nodeIds (fullGraph bullets).forest.paths edge :=
  isImplied_of_mem_impliedEdges ((nodup_nodeIds_fullGraph valid distinct).of_map _)
    (fun _ inside => inside) (relateSteps_fullGraph valid distinct) member

theorem isImplied_of_mem_pruned {edge : Edge}
    (member : edge ∈ impliedEdges (prunedGraph bullets).forest) :
    IsImplied (prunedGraph bullets).nodeIds (fullGraph bullets).forest.paths edge := by
  have left := (fullGraph bullets).paths_prunedForest_sublist
  have ids := nodup_nodeIds_prunedGraph valid distinct
  rw [Graph.nodeIds, Graph.nodes, forest_prunedGraph] at ids ⊢
  rw [forest_prunedGraph] at member
  refine isImplied_of_mem_impliedEdges (ids.of_map _) (fun path inside => ?_) ?_ member
  · exact left.subset ((Forest.paths_arrange_perm _).mem_iff.mp inside)
  · exact Forest.relateSteps_arrange ((nodup_ids_prunedForest valid distinct).of_map _)
      ((relateSteps_fullGraph valid distinct).sublist left)

/-- The edges that the full graph holds are the written links and implied edges. -/
theorem mem_fullEdges {edge : Edge} (member : edge ∈ fullEdges bullets) :
    edge.kind = .link ∧ edge.mustRender = true ∧ Links bullets edge.source edge.destination ∨
      IsImplied (fullGraph bullets).nodeIds (fullGraph bullets).forest.paths edge := by
  rcases List.mem_append.mp member with written | implied
  · obtain ⟨links, kind, drawn⟩ := mem_kept_authoredLinks_iff.mp written
    exact Or.inl ⟨kind, drawn, links⟩
  · exact Or.inr (isImplied_of_mem_full valid distinct implied)

/-- A flow edge of the full graph that is rerouted is still implied. -/
theorem isImplied_of_reroute? {edge moved : Edge}
    (member : edge ∈ impliedEdges (fullGraph bullets).forest)
    (rerouted : reroute? (fullGraph bullets).rerouteTable edge = some moved) :
    IsImplied (prunedGraph bullets).nodeIds (fullGraph bullets).forest.paths moved := by
  have notHierarchy := (reroute?_eq_some_iff.mp rerouted).1
  rcases List.mem_append.mp member with isHierarchy | isFlow
  · have inHierarchy := ((LinkGraph.mem_kept_iff drawn_of_mem_hierarchyEdges).mp isHierarchy).1
    exact absurd (sublist_of_mem_hierarchyEdgesFrom inHierarchy).1 notHierarchy
  · have nodes := nodup_nodeIds_fullGraph valid distinct
    have inFlow := ((LinkGraph.mem_kept_iff drawn_of_mem_flowEdges).mp isFlow).1
    obtain ⟨first, firstMember, second, secondMember, rfl, leads⟩ :=
      Graph.leadsOn_of_reroute? nodes inFlow rerouted
    exact .flow firstMember secondMember leads

/-- The edges that the pruned graph holds are what was written, between what stands for it, and
implied edges. -/
theorem mem_prunedEdges {edge : Edge} (member : edge ∈ prunedEdges bullets) :
    edge.kind = .link ∧ edge.mustRender = true ∧ Carries true bullets edge.source edge.destination ∨
      IsImplied (prunedGraph bullets).nodeIds (fullGraph bullets).forest.paths edge := by
  rcases List.mem_append.mp member with moved | implied
  · have drawn : ∀ other ∈ (fullGraph bullets).links.edges.filterMap
        (reroute? (fullGraph bullets).rerouteTable), other.mustRender = true := by
      intro other inside
      obtain ⟨_, _, rerouted⟩ := List.mem_filterMap.mp inside
      exact (reroute?_eq_some_iff.mp rerouted).2.2.2.2.2
    obtain ⟨inside, -⟩ := (LinkGraph.mem_kept_iff drawn).mp moved
    obtain ⟨origin, known, rerouted⟩ := List.mem_filterMap.mp inside
    rcases List.mem_append.mp ((holds_fullEdges bullets).edges_perm.mem_iff.mp known) with
      written | implied
    · obtain ⟨links, isLink, -⟩ := mem_kept_authoredLinks_iff.mp written
      obtain ⟨-, first, last, apart, kind, isDrawn⟩ := reroute?_eq_some_iff.mp rerouted
      rw [resolve_rerouteTable_eq valid distinct] at first last
      exact Or.inl ⟨kind.trans isLink, isDrawn, apart, _, _, links, first, last⟩
    · exact Or.inr (isImplied_of_reroute? valid distinct implied rerouted)
  · exact Or.inr (isImplied_of_mem_pruned valid distinct implied)

/-- Every written link is held between what stands for its ends. -/
theorem mem_prunedEdges_of_carries (named : ∀ bullet ∈ bullets, bullet.id ≠ "")
    {source destination : String} (carried : Carries true bullets source destination) :
    ⟨source, destination, .link, true⟩ ∈ prunedEdges bullets := by
  obtain ⟨apart, first, last, links, fromFirst, fromLast⟩ := carried
  have hasSource := standIn?_ne_empty named links.2.1 fromFirst
  have hasDestination := standIn?_ne_empty named links.2.2 fromLast
  have written : ⟨first, last, .link, true⟩ ∈ (fullGraph bullets).links.edges :=
    (holds_fullEdges bullets).edges_perm.mem_iff.mpr
      (List.mem_append_left _ (mem_kept_authoredLinks_iff.mpr ⟨links, rfl, rfl⟩))
  have rerouted : reroute? (fullGraph bullets).rerouteTable ⟨first, last, .link, true⟩ =
      some ⟨source, destination, .link, true⟩ := by
    refine reroute?_eq_some_iff.mpr ⟨by simp, ?_, ?_, apart, rfl, rfl⟩
    · rw [resolve_rerouteTable_eq valid distinct]
      exact fromFirst
    · rw [resolve_rerouteTable_eq valid distinct]
      exact fromLast
  refine List.mem_append_left _ ?_
  rw [LinkGraph.kept, List.mem_map]
  refine ⟨_, List.mem_filter.mpr ⟨List.mem_filterMap.mpr ⟨_, written, rerouted⟩, ?_⟩, rfl⟩
  simp [hasSource, hasDestination]

end Compiled

end OutlineDiagram
