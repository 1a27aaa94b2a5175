/-
This file says what pruning does to an outline without markers. Every node survives
and stands for itself, so the forest stays and the same edges are held. But the links
are added anew, grouped by the id that they leave, and implied edges come after them
as before. So the ids can be listed in another order, and of two bullets that link to
each other the other half of the pair can be drawn. The diagram is the same if and
only if that happens for no two bullets.
-/

import OutlineDiagram.Line.Reader
import OutlineDiagram.Proofs.Forest.Arranged
import OutlineDiagram.Proofs.Graph.Authored
import OutlineDiagram.Proofs.Links.Order

namespace OutlineDiagram

/-! ### Nodes -/

/-- Where all nodes survive, pruning leaves the forest. -/
theorem pruneForest_eq_self {foldIds hideIds : IdSet} {above : List Node} {forest : Forest Node}
    (survive : ∀ path ∈ forest.pathsFrom above,
      PathState.survives foldIds hideIds (path.1.map Node.id, path.2.id) = true) :
    pruneForest foldIds hideIds (.along foldIds hideIds (above.map Node.id)) forest = forest := by
  induction forest generalizing above with
  | nil => rfl
  | cons node below after belowHypothesis afterHypothesis =>
    rw [Forest.pathsFrom, List.forall_mem_cons, List.forall_mem_append] at survive
    obtain ⟨own, inBelow, inAfter⟩ := survive
    have belowSame := belowHypothesis inBelow
    rw [List.map_cons, PathState.along] at belowSame
    rw [pruneForest, afterHypothesis inAfter, belowSame]
    exact if_pos own

section Unmarked

variable {bullets : List Line}
  (unmarked : ∀ bullet ∈ bullets, bullet.visibility ≠ .fold ∧ bullet.visibility ≠ .hide)

include unmarked

theorem survives_of_unmarked (path : List String × String) :
    PathState.survives (markedIds .fold bullets) (markedIds .hide bullets) path = true := by
  rw [PathState.survives_eq, Bool.and_eq_true, Bool.not_eq_true', Bool.not_eq_true',
    List.any_eq_false, List.any_eq_false]
  constructor
  · intro id _ hidden
    obtain ⟨bullet, member, hides, -⟩ := mem_markedIds_iff.mp (IdSet.contains_iff.mp hidden)
    exact (unmarked bullet member).2 hides
  · intro id _ folded
    obtain ⟨bullet, member, folds, -⟩ := mem_markedIds_iff.mp (IdSet.contains_iff.mp folded)
    exact (unmarked bullet member).1 folds

theorem forest_prunedGraph_of_unmarked :
    (prunedGraph bullets).forest = (fullGraph bullets).forest := by
  have left : (fullGraph bullets).prunedForest = (fullGraph bullets).forest :=
    @pruneForest_eq_self (markedIds .fold bullets) (markedIds .hide bullets) []
      (fullGraph bullets).forest fun _ _ => survives_of_unmarked unmarked _
  have arranged : (fullGraph bullets).forest =
      (Graph.ofBullets bullets).withSizes.forest.arrange := rfl
  rw [forest_prunedGraph, left, arranged, Forest.arrange_arrange]

theorem standIn?_of_unmarked (id : String) : standIn? bullets id = some id := by
  rw [standIn?]
  split
  · rfl
  · rename_i above bullet found
    have inside := mem_bullets_of_mem_place (List.mem_of_find?_eq_some found)
    have shown : ¬ ((bullet :: above).any fun other => other.visibility == .hide) = true := by
      rw [List.any_eq_true]
      rintro ⟨other, member, hides⟩
      exact (unmarked other (inside other member)).2 (eq_of_beq hides)
    have unfolded : (above.filter fun other => other.visibility == .fold) = [] := by
      refine List.filter_eq_nil_iff.mpr fun other member folds => ?_
      exact (unmarked other (inside other (List.mem_cons_of_mem _ member))).1 (eq_of_beq folds)
    rw [if_neg shown, unfolded]
    rfl

end Unmarked

/-! ### Edges -/

/-- The written links between names, in the order of the outline. -/
def writtenEdges (bullets : List Line) : List Edge :=
  LinkGraph.kept (bullets.flatMap authoredLinks)

/-- The edges of the full graph that are not drawn anew: links and flow edges, grouped by the id that
they leave. -/
def regroupedEdges (bullets : List Line) : List Edge :=
  (fullGraph bullets).links.edges.filter fun edge => edge.kind != .hierarchy

theorem fullEdges_eq (bullets : List Line) :
    fullEdges bullets = writtenEdges bullets ++ impliedEdges (fullGraph bullets).forest := rfl

theorem carries_false_iff {bullets : List Line} {source destination : String} :
    Carries false bullets source destination ↔ Links bullets source destination := by
  constructor
  · rintro ⟨-, first, last, links, fromFirst, fromLast⟩
    rwa [← Option.some.inj fromFirst, ← Option.some.inj fromLast]
  · intro links
    obtain ⟨bullet, -, authors⟩ := links.1
    exact ⟨authors.1, source, destination, links, rfl, rfl⟩

theorem named_of_mem_fullEdges {bullets : List Line} {edge : Edge}
    (member : edge ∈ fullEdges bullets) : edge.source ≠ "" ∧ edge.destination ≠ "" := by
  rcases List.mem_append.mp member with written | implied
  · exact LinkGraph.named_of_mem_kept written
  · exact (List.mem_append.mp implied).elim LinkGraph.named_of_mem_kept LinkGraph.named_of_mem_kept

section Edges

variable {bullets : List Line} (valid : ∀ line ∈ bullets, line.isBullet = true)
  (distinct : (bullets.map Line.id).Nodup)
  (unmarked : ∀ bullet ∈ bullets, bullet.visibility ≠ .fold ∧ bullet.visibility ≠ .hide)

include valid distinct unmarked

/-- An edge of the full graph is rerouted to itself, unless it is drawn anew. -/
theorem reroute?_of_unmarked {edge : Edge} (member : edge ∈ fullEdges bullets) :
    reroute? (fullGraph bullets).rerouteTable edge =
      if edge.kind != .hierarchy then some edge else none := by
  have own : ∀ id, (fullGraph bullets).rerouteTable.resolve id = some id := fun id =>
    (resolve_rerouteTable_eq valid distinct id).trans (standIn?_of_unmarked unmarked id)
  have holdsLinks := holdsLinks_fullEdges valid distinct
  by_cases isHierarchy : edge.kind = .hierarchy
  · rw [reroute?, if_pos isHierarchy, isHierarchy]
    rfl
  · rw [if_pos (bne_iff_ne.mpr isHierarchy), reroute?_eq_some_iff]
    exact ⟨isHierarchy, own _, own _, holdsLinks.noLoop edge member, rfl,
      holdsLinks.drawn edge member⟩

theorem prunedEdges_of_unmarked :
    prunedEdges bullets = regroupedEdges bullets ++ impliedEdges (fullGraph bullets).forest := by
  have known : ∀ edge ∈ (fullGraph bullets).links.edges, edge ∈ fullEdges bullets :=
    fun _ member => (holds_fullEdges bullets).edges_perm.mem_iff.mp member
  have regrouped : ∀ edge ∈ regroupedEdges bullets, edge ∈ fullEdges bullets :=
    fun edge member => known edge (List.mem_filter.mp member).1
  have moved : (fullGraph bullets).links.edges.filterMap
      (reroute? (fullGraph bullets).rerouteTable) = regroupedEdges bullets := by
    rw [regroupedEdges, ← List.filterMap_eq_filter]
    refine List.filterMap_congr fun edge member => ?_
    exact reroute?_of_unmarked valid distinct unmarked (known edge member)
  rw [prunedEdges, moved, forest_prunedGraph_of_unmarked unmarked, LinkGraph.kept_eq_self]
  · exact fun edge member => (holdsLinks_fullEdges valid distinct).drawn edge (regrouped edge member)
  · exact fun edge member => named_of_mem_fullEdges (regrouped edge member)

/-- The pruned graph holds the edges of the full one. -/
theorem mem_prunedEdges_iff_of_unmarked (edge : Edge) :
    edge ∈ prunedEdges bullets ↔ edge ∈ fullEdges bullets := by
  have known : edge ∈ (fullGraph bullets).links.edges ↔ edge ∈ fullEdges bullets :=
    (holds_fullEdges bullets).edges_perm.mem_iff
  rw [prunedEdges_of_unmarked valid distinct unmarked, List.mem_append, regroupedEdges,
    List.mem_filter, known]
  constructor
  · rintro (⟨member, -⟩ | implied)
    · exact member
    · exact List.mem_append_right _ implied
  · intro member
    rcases List.mem_append.mp member with written | implied
    · rw [(mem_kept_authoredLinks_iff.mp written).2.1]
      exact Or.inl ⟨member, rfl⟩
    · exact Or.inr implied

end Edges

/-! ### The order of the ids -/

theorem listsInOrder_withImpliedEdges {graph : Graph} {added : List Edge}
    (lists : graph.links.ListsInOrder added) :
    graph.withImpliedEdges.links.ListsInOrder
      (added ++ impliedEdges graph.withImpliedEdges.forest) := by
  have drawn := (lists.addEdges (hierarchyEdges .root graph.forest.arrange)).addEdges
    (flowEdges graph.forest.arrange)
  rw [List.append_assoc] at drawn
  exact drawn

theorem listsInOrder_fullEdges (bullets : List Line) :
    (fullGraph bullets).links.ListsInOrder (fullEdges bullets) := by
  have written : (Graph.ofBullets bullets).withSizes.links.ListsInOrder (writtenEdges bullets) :=
    LinkGraph.listsInOrder_addEdges (bullets.flatMap authoredLinks)
  exact listsInOrder_withImpliedEdges written

theorem listsInOrder_prunedEdges (bullets : List Line) :
    (prunedGraph bullets).links.ListsInOrder (prunedEdges bullets) := by
  have moved : (fullGraph bullets).prune.links.ListsInOrder
      (LinkGraph.kept ((fullGraph bullets).links.edges.filterMap
        (reroute? (fullGraph bullets).rerouteTable))) := LinkGraph.listsInOrder_addEdges _
  rw [prunedEdges, prunedGraph_eq]
  exact listsInOrder_withImpliedEdges moved

section Diagrams

variable {bullets : List Line} (valid : ∀ line ∈ bullets, line.isBullet = true)
  (distinct : (bullets.map Line.id).Nodup)
  (unmarked : ∀ bullet ∈ bullets, bullet.visibility ≠ .fold ∧ bullet.visibility ≠ .hide)

include valid distinct unmarked

/-- The links of the two diagrams join the same ids with the same kinds. -/
theorem ends_kind_normalize_prunedGraph_iff (source destination : String) (kind : EdgeKind) :
    (∃ edge ∈ (prunedGraph bullets).links.normalize.edges,
        edge.source = source ∧ edge.destination = destination ∧ edge.kind = kind) ↔
      ∃ edge ∈ (fullGraph bullets).links.normalize.edges,
        edge.source = source ∧ edge.destination = destination ∧ edge.kind = kind := by
  have holdsLinks := holdsLinks_fullEdges valid distinct
  exact LinkGraph.ends_kind_normalize_iff (holds_fullEdges bullets) (holds_prunedEdges bullets)
    (mem_prunedEdges_iff_of_unmarked valid distinct unmarked) holdsLinks.noLoop
    holdsLinks.notBilink holdsLinks.drawn source destination kind

/-- Which of two linked bullets comes first is told by the links alone, since they are added before
the implied edges. -/
theorem idxOf_lt_idxOf_prunedGraph_iff {one other : String} (links : Links bullets one other) :
    ((prunedGraph bullets).links.nodeIds.idxOf one <
          (prunedGraph bullets).links.nodeIds.idxOf other ↔
        (fullGraph bullets).links.nodeIds.idxOf one <
          (fullGraph bullets).links.nodeIds.idxOf other) ↔
      (NamesFirst (regroupedEdges bullets) one other ↔
        NamesFirst (writtenEdges bullets) one other) := by
  have written : ⟨one, other, .link, true⟩ ∈ writtenEdges bullets :=
    mem_kept_authoredLinks_iff.mpr ⟨links, rfl, rfl⟩
  have regrouped : ⟨one, other, .link, true⟩ ∈ regroupedEdges bullets := by
    refine List.mem_filter.mpr ⟨?_, rfl⟩
    exact (holds_fullEdges bullets).edges_perm.mem_iff.mpr (List.mem_append_left _ written)
  have different : one ≠ other := by
    obtain ⟨bullet, -, authors⟩ := links.1
    exact authors.1
  rw [(listsInOrder_prunedEdges bullets).idxOf_lt_iff different,
    (listsInOrder_fullEdges bullets).idxOf_lt_iff different,
    prunedEdges_of_unmarked valid distinct unmarked, fullEdges_eq,
    namesFirst_append_iff _ (mem_namesOf_of_mem regrouped).1,
    namesFirst_append_iff _ (mem_namesOf_of_mem written).1]

/-- The links of the two diagrams are the same if and only if of any two bullets that link to each
other the same one comes first. -/
theorem mem_edges_normalize_prunedGraph_iff :
    (∀ edge, edge ∈ (prunedGraph bullets).links.normalize.edges ↔
        edge ∈ (fullGraph bullets).links.normalize.edges) ↔
      ∀ one other, Links bullets one other → Links bullets other one →
        (NamesFirst (regroupedEdges bullets) one other ↔
          NamesFirst (writtenEdges bullets) one other) := by
  have holdsLinks := holdsLinks_fullEdges valid distinct
  rw [LinkGraph.mem_normalize_congr_iff (holds_fullEdges bullets) (holds_prunedEdges bullets)
    (mem_prunedEdges_iff_of_unmarked valid distinct unmarked) holdsLinks.noLoop
    holdsLinks.notBilink holdsLinks.drawn, holdsLinks.forall_flip_mem_iff fun one other =>
      ((prunedGraph bullets).links.nodeIds.idxOf one <
          (prunedGraph bullets).links.nodeIds.idxOf other ↔
        (fullGraph bullets).links.nodeIds.idxOf one <
          (fullGraph bullets).links.nodeIds.idxOf other)]
  refine forall_congr' fun one => forall_congr' fun other => ?_
  rw [carries_false_iff, carries_false_iff]
  exact forall_congr' fun links => imp_congr_right fun _ =>
    idxOf_lt_idxOf_prunedGraph_iff valid distinct unmarked links

end Diagrams

namespace Graph

/-- An outline without markers is drawn with the same nodes whether it is pruned or not, and with
edges between the same ids. The same edges are drawn if and only if of any two bullets that link to
each other the links name the same one first, as they are written and as they are grouped anew. -/
theorem edges_compile_unmarked_iff {lines : List Line} {built : Graph}
    (succeeds : build lines = .ok built) (distinct : ((bulletsOf lines).map Line.id).Nodup)
    (unmarked : ∀ bullet ∈ bulletsOf lines,
      bullet.visibility ≠ .fold ∧ bullet.visibility ≠ .hide) :
    ∃ pruned full, compile true lines = .ok pruned ∧ compile false lines = .ok full ∧
      pruned.forest = full.forest ∧
      (∀ source destination kind,
        (∃ edge ∈ pruned.links.edges,
            edge.source = source ∧ edge.destination = destination ∧ edge.kind = kind) ↔
          ∃ edge ∈ full.links.edges,
            edge.source = source ∧ edge.destination = destination ∧ edge.kind = kind) ∧
      ((∀ edge, edge ∈ pruned.links.edges ↔ edge ∈ full.links.edges) ↔
        ∀ one other, Links (bulletsOf lines) one other → Links (bulletsOf lines) other one →
          (NamesFirst (regroupedEdges (bulletsOf lines)) one other ↔
            NamesFirst (writtenEdges (bulletsOf lines)) one other)) := by
  have valid : ∀ line ∈ bulletsOf lines, line.isBullet = true :=
    fun line member => isBullet_of_mem_bulletsOf member
  have legal := firstBadIndent?_of_build succeeds
  have forest := forest_prunedGraph_of_unmarked unmarked
  have ends := ends_kind_normalize_prunedGraph_iff valid distinct unmarked
  have edges := mem_edges_normalize_prunedGraph_iff valid distinct unmarked
  have pruned := compile_eq_ok legal true
  have full := compile_eq_ok legal false
  unfold prunedGraph fullGraph at forest ends edges
  -- From here on only the forests and the links of the two graphs count.
  generalize (ofBullets (bulletsOf lines)).drawn true = shown at pruned forest ends edges
  generalize (ofBullets (bulletsOf lines)).drawn false = whole at full forest ends edges
  exact ⟨_, _, pruned, full, forest, ends, edges⟩

/-- Two bullets that link to each other come in the same order in both diagrams, although a third one
links to the first. -/
theorem edges_compile_unmarked_mutual :
    let lines :=
      (Line.readAll 2 ["- A // a >b", "- B // b >a", "  - C // c >a"] (IdSupply.numbered [])).1
    build lines = .ok (ofBullets lines) ∧ ((bulletsOf lines).map Line.id).Nodup ∧
      (∀ bullet ∈ bulletsOf lines, bullet.visibility ≠ .fold ∧ bullet.visibility ≠ .hide) ∧
      ∃ pruned full, compile true lines = .ok pruned ∧ compile false lines = .ok full ∧
        pruned.forest = full.forest ∧ ∀ edge, edge ∈ pruned.links.edges ↔ edge ∈ full.links.edges := by
  intro lines
  have succeeds : build lines = .ok (ofBullets lines) := by decide +kernel
  have distinct : ((bulletsOf lines).map Line.id).Nodup := by decide +kernel
  have unmarked : ∀ bullet ∈ bulletsOf lines,
      bullet.visibility ≠ .fold ∧ bullet.visibility ≠ .hide := by decide +kernel
  have ordered : ∀ edge ∈ writtenEdges (bulletsOf lines),
      edge.flip ∈ writtenEdges (bulletsOf lines) →
        (NamesFirst (regroupedEdges (bulletsOf lines)) edge.source edge.destination ↔
          NamesFirst (writtenEdges (bulletsOf lines)) edge.source edge.destination) := by
    decide +kernel
  obtain ⟨pruned, full, prunes, compiles, forest, -, same⟩ :=
    edges_compile_unmarked_iff succeeds distinct unmarked
  refine ⟨succeeds, distinct, unmarked, pruned, full, prunes, compiles, forest, same.mpr ?_⟩
  intro one other forth back
  exact ordered ⟨one, other, .link, true⟩ (mem_kept_authoredLinks_iff.mpr ⟨forth, rfl, rfl⟩)
    (mem_kept_authoredLinks_iff.mpr ⟨back, rfl, rfl⟩)

/-- An earlier bullet leads to the second of two that link to each other. With its links grouped the
second one is named first, so pruning draws the other half of the pair. -/
theorem edges_compile_unmarked_ne :
    let lines := (Line.readAll 2 ["- Y // y >z", "- A // a >b", "- B // b >a <y", "- Z // z"]
      (IdSupply.numbered [])).1
    build lines = .ok (ofBullets lines) ∧ ((bulletsOf lines).map Line.id).Nodup ∧
      (∀ bullet ∈ bulletsOf lines, bullet.visibility ≠ .fold ∧ bullet.visibility ≠ .hide) ∧
      ∃ pruned full, compile true lines = .ok pruned ∧ compile false lines = .ok full ∧
        ⟨"a", "b", .bilink, true⟩ ∈ full.links.edges ∧
          ⟨"a", "b", .bilink, true⟩ ∉ pruned.links.edges := by
  intro lines
  have legal : firstBadIndent? 0 (bulletsOf lines) = none := by decide +kernel
  refine ⟨by decide +kernel, by decide +kernel, by decide +kernel, _, _,
    compile_eq_ok legal true, compile_eq_ok legal false, ?_, ?_⟩
  · decide +kernel
  · decide +kernel

end Graph

end OutlineDiagram
