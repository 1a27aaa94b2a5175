/-
This file says which hierarchy edges a compiled outline has. The walk that draws them
carries along what it has seen of the children of a node; what it carries can be read
off the trees before a child, so each node says by its own site which edge reaches
it. Pruning drops the hierarchy edges and draws them anew, and merging leaves them
alone, so in the end there are those of the final forest between ids that are not
empty.
-/

import Mathlib.Logic.Relation
import OutlineDiagram.Proofs.Forest.Siblings
import OutlineDiagram.Proofs.Graph.Flow
import OutlineDiagram.Proofs.Links.Fixed

namespace OutlineDiagram

/-! ### The edge that reaches a node -/

namespace Forest

/-- The leaves among the roots of trees that are no steps and start no chain. -/
def dataLeaves (trees : List (Node × Forest Node)) : List Node :=
  (trees.filter fun tree => tree.1.kind == .data && tree.2.isEmpty).map Prod.fst

theorem dataLeaves_concat_of_data {trees : List (Node × Forest Node)} {node : Node}
    {below : Forest Node} (isData : node.kind = .data) (isLeaf : below.isEmpty = true) :
    dataLeaves (trees ++ [(node, below)]) = dataLeaves trees ++ [node] := by
  rw [dataLeaves, List.filter_append, List.filter_cons_of_pos (by simp [isData, isLeaf]),
    List.map_append]
  rfl

theorem dataLeaves_concat_of_other {trees : List (Node × Forest Node)} {node : Node}
    {below : Forest Node} (other : node.kind = .data → below.isEmpty = false) :
    dataLeaves (trees ++ [(node, below)]) = dataLeaves trees := by
  rw [dataLeaves, List.filter_append, List.filter_cons_of_neg (by simpa using other),
    List.filter_nil, List.append_nil, dataLeaves]

namespace Site

variable (site : Site Node)

/-- The leaves that lead from the parent to a node: those before it, if it is a leaf too. -/
def way : List Node := if site.below.isEmpty then dataLeaves site.earlier else []

/-- The node from which a hierarchy edge leads to a node. -/
def source? : Option Node :=
  match site.value.kind with
  | .flowBreak => none
  | .flow =>
    if site.earlier.any (fun tree => tree.1.isProcess) || site.parent?.any Node.isProcess then
      none
    else site.parent?
  | .data => site.way.getLast?.or site.parent?

/-- The hierarchy edge that leads to a node. -/
def edge? : Option Edge :=
  site.source?.map fun source => ⟨source.id, site.value.id, .hierarchy, true⟩

theorem source?_of_flow (isStep : site.value.kind = .flow) {source : Node} :
    site.source? = some source ↔ site.parent? = some source ∧ source.kind ≠ .flow ∧
      ∀ tree ∈ site.earlier, tree.1.kind ≠ .flow := by
  rw [source?, isStep]
  dsimp only
  rw [Option.ite_none_left_eq_some, Bool.or_eq_true, not_or, and_comm]
  refine and_congr_right fun isParent => ?_
  rw [isParent, and_comm]
  simp [Node.isProcess]

theorem source?_of_data (isData : site.value.kind = .data) {parent : Node}
    (isParent : site.parent? = some parent) :
    site.source? = some (site.way.getLast?.getD parent) := by
  rw [source?, isData, isParent]
  cases site.way.getLast? <;> rfl

variable {site}

theorem edge?_eq_some_iff {edge : Edge} :
    site.edge? = some edge ↔ ∃ source, site.source? = some source ∧
      edge = ⟨source.id, site.value.id, .hierarchy, true⟩ := by
  rw [edge?, Option.map_eq_some_iff]
  exact exists_congr fun source => and_congr_right fun _ => eq_comm

/-- A hierarchy edge comes from the parent or from the root of a tree before the node. -/
theorem source?_cases {source : Node} (found : site.source? = some source) :
    site.parent? = some source ∨ source ∈ site.earlier.map Prod.fst := by
  rw [source?] at found
  split at found
  · exact absurd found (by simp)
  · exact Or.inl (Option.ite_none_left_eq_some.mp found).2
  · rcases Option.or_eq_some_iff.mp found with leaf | ⟨-, parent⟩
    · have onWay := List.mem_of_getLast? leaf
      rw [way] at onWay
      split at onWay
      · obtain ⟨tree, listed, rfl⟩ := List.mem_map.mp onWay
        exact Or.inr (List.mem_map_of_mem (List.mem_filter.mp listed).1)
      · exact absurd onWay List.not_mem_nil
    · exact Or.inl parent

end Site

end Forest

open Forest (Site dataLeaves)

/-! ### The walk over the children -/

namespace SiblingState

/-- What has been seen of the children of a parent after some trees. -/
def after (parent? : Option Node) (earlier : List (Node × Forest Node)) : SiblingState where
  hasFlowLink := earlier.any (fun tree => tree.1.isProcess) && !parent?.any Node.isProcess
  lastLeaf := (dataLeaves earlier).getLast?

variable (parent? : Option Node) (earlier : List (Node × Forest Node)) (child : Node)
  (below : Forest Node)

theorem isProcess_getD_root : (parent?.getD .root).isProcess = parent?.any Node.isProcess := by
  cases parent? <;> rfl

theorem visit_after :
    ((after parent? earlier).visit (parent?.getD .root) child below).2 =
      after parent? (earlier ++ [(child, below)]) := by
  have seen : (earlier ++ [(child, below)]).any (fun tree => tree.1.isProcess) =
      (earlier.any (fun tree => tree.1.isProcess) || child.isProcess) := by
    rw [List.any_append, List.any_cons, List.any_nil, Bool.or_false]
  rw [visit, isProcess_getD_root, after, after, seen]
  cases kind : child.kind with
  | flowBreak =>
    have notStep : child.isProcess = false := by rw [Node.isProcess, kind]; rfl
    rw [Forest.dataLeaves_concat_of_other (by simp [kind]), notStep, Bool.or_false]
  | flow =>
    have isStep : child.isProcess = true := by rw [Node.isProcess, kind]; rfl
    rw [Forest.dataLeaves_concat_of_other (by simp [kind]), isStep]
    cases parent?.any Node.isProcess <;> cases earlier.any fun tree => tree.1.isProcess <;> rfl
  | data =>
    have notStep : child.isProcess = false := by rw [Node.isProcess, kind]; rfl
    rw [notStep, Bool.or_false]
    cases isLeaf : below.isEmpty with
    | false =>
      rw [Forest.dataLeaves_concat_of_other fun _ => isLeaf]
      rfl
    | true =>
      rw [Forest.dataLeaves_concat_of_data kind isLeaf, List.getLast?_concat]
      rfl

/-- A visit draws the edge that the site of the child says; where there is no parent, an edge from
above is not added. -/
theorem kept_visit_after :
    LinkGraph.kept ((after parent? earlier).visit (parent?.getD .root) child below).1.toList =
      LinkGraph.kept (Site.edge? ⟨parent?, earlier, child, below⟩).toList := by
  have fromAbove : ∀ destination : String,
      LinkGraph.kept [⟨(parent?.getD .root).id, destination, .hierarchy, true⟩] =
        LinkGraph.kept
          (parent?.map fun parent => ⟨parent.id, destination, .hierarchy, true⟩).toList := by
    intro destination
    cases parent? with
    | none => exact LinkGraph.kept_singleton_of_empty (Or.inl rfl)
    | some parent => rfl
  rw [visit, isProcess_getD_root, after, Site.edge?, Site.source?, Site.way]
  cases kind : child.kind with
  | flowBreak => rfl
  | flow =>
    cases isStep : parent?.any Node.isProcess <;>
      cases seen : earlier.any fun tree => tree.1.isProcess
    · exact fromAbove child.id
    all_goals rfl
  | data =>
    cases isLeaf : below.isEmpty with
    | false => exact fromAbove child.id
    | true =>
      rw [if_pos rfl]
      cases (dataLeaves earlier).getLast? with
      | none => exact fromAbove child.id
      | some leaf => rfl

end SiblingState

theorem kept_hierarchyEdgesFrom (parent? : Option Node) (earlier : List (Node × Forest Node))
    (forest : Forest Node) :
    LinkGraph.kept
        (hierarchyEdgesFrom (parent?.getD .root) (.after parent? earlier) forest) =
      LinkGraph.kept ((forest.sitesFrom parent? earlier).filterMap Site.edge?) := by
  induction forest generalizing parent? earlier with
  | nil => rfl
  | cons child below after belowHypothesis afterHypothesis =>
    have inBelow := belowHypothesis (some child) []
    have further := afterHypothesis parent? (earlier ++ [(child, below)])
    rw [← SiblingState.visit_after] at further
    calc LinkGraph.kept (hierarchyEdgesFrom (parent?.getD .root) (.after parent? earlier)
          (.cons child below after))
        = LinkGraph.kept (Site.edge? ⟨parent?, earlier, child, below⟩).toList ++
            LinkGraph.kept ((below.sitesFrom (some child) []).filterMap Site.edge?) ++
            LinkGraph.kept ((after.sitesFrom parent? (earlier ++ [(child, below)])).filterMap
              Site.edge?) := by
          rw [hierarchyEdgesFrom, LinkGraph.kept_append, LinkGraph.kept_append,
            SiblingState.kept_visit_after, further, ← inBelow]
          rfl
      _ = LinkGraph.kept (((Forest.cons child below after).sitesFrom parent? earlier).filterMap
            Site.edge?) := by
          rw [Forest.sitesFrom, List.filterMap_eq_flatMap_toList, List.filterMap_eq_flatMap_toList,
            List.filterMap_eq_flatMap_toList, List.flatMap_cons, List.flatMap_append,
            LinkGraph.kept_append, LinkGraph.kept_append, List.append_assoc]

/-- The hierarchy edges of a forest are those that its sites say. -/
theorem kept_hierarchyEdges (forest : Forest Node) :
    LinkGraph.kept (hierarchyEdges .root forest) =
      LinkGraph.kept (forest.sites.filterMap Site.edge?) :=
  kept_hierarchyEdgesFrom none [] forest

/-! ### Hierarchy edges of a drawn graph -/

/-- The edges that sites say reach the nodes of these sites, in the same order. -/
theorem destinations_sublist (sites : List (Site Node)) :
    ((sites.filterMap Site.edge?).map Edge.destination).Sublist
      (sites.map fun site => site.value.id) := by
  induction sites with
  | nil => exact List.Sublist.slnil
  | cons site rest inductionHypothesis =>
    cases found : site.edge? with
    | none =>
      rw [List.filterMap_cons_none found]
      exact inductionHypothesis.cons _
    | some edge =>
      obtain ⟨source, -, rfl⟩ := Site.edge?_eq_some_iff.mp found
      rw [List.filterMap_cons_some found]
      exact inductionHypothesis.cons_cons _

theorem map_id_sites (forest : Forest Node) :
    (forest.sites.map fun site => site.value.id) = forest.toList.map Node.id := by
  rw [← forest.map_value_sites, List.map_map]
  rfl

/-- No two hierarchy edges of a forest reach the same node. -/
theorem nodup_destinations {forest : Forest Node} (distinct : (forest.toList.map Node.id).Nodup) :
    ((LinkGraph.kept (forest.sites.filterMap Site.edge?)).map Edge.destination).Nodup := by
  have reached := (destinations_sublist forest.sites).nodup (map_id_sites forest ▸ distinct)
  rw [LinkGraph.kept, List.map_map]
  exact (List.filter_sublist.map Edge.destination).nodup reached

section Drawn

variable {bullets : List Line} {prune : Bool}

theorem kind_ne_of_mem_linkedEdges {edge : Edge} (member : edge ∈ linkedEdges prune bullets) :
    edge.kind ≠ .hierarchy := by
  cases prune with
  | false =>
    rw [(mem_kept_authoredLinks_iff.mp member).2.1]
    decide
  | true =>
    obtain ⟨moved, inside, rfl⟩ := LinkGraph.exists_of_mem_kept member
    obtain ⟨origin, -, rerouted⟩ := List.mem_filterMap.mp inside
    obtain ⟨notHierarchy, -, -, -, kind, -⟩ := reroute?_eq_some_iff.mp rerouted
    exact kind ▸ notHierarchy

/-- The hierarchy edges that a drawn graph holds are those of its forest. -/
theorem filter_hierarchy_drawnEdges :
    (drawnEdges prune bullets).filter (fun edge => edge.kind == .hierarchy) =
      LinkGraph.kept (hierarchyEdges .root ((Graph.ofBullets bullets).drawn prune).forest) := by
  rw [drawnEdges]
  have noLink : ∀ edge ∈ linkedEdges prune bullets, ¬ (edge.kind == .hierarchy) = true :=
    fun edge member => mt eq_of_beq (kind_ne_of_mem_linkedEdges member)
  generalize ((Graph.ofBullets bullets).drawn prune).forest = forest
  have isHierarchy : ∀ edge ∈ LinkGraph.kept (hierarchyEdges .root forest),
      (edge.kind == .hierarchy) = true := by
    intro edge member
    have inside := ((LinkGraph.mem_kept_iff drawn_of_mem_hierarchyEdges).mp member).1
    exact beq_of_eq (sublist_of_mem_hierarchyEdgesFrom inside).1
  have noFlow : ∀ edge ∈ LinkGraph.kept (flowEdges forest), ¬ (edge.kind == .hierarchy) = true := by
    intro edge member
    have inside := ((LinkGraph.mem_kept_iff drawn_of_mem_flowEdges).mp member).1
    obtain ⟨_, _, _, _, rfl⟩ := exists_nodes_of_mem_flowEdges inside
    exact Bool.false_ne_true
  rw [impliedEdges, List.filter_append, List.filter_append, List.filter_eq_nil_iff.mpr noLink,
    List.filter_eq_self.mpr isHierarchy, List.filter_eq_nil_iff.mpr noFlow, List.nil_append,
    List.append_nil]

/-- Where no two bullets share an id, the hierarchy edges of the normal form are those that the
sites of the final forest say. -/
theorem edgesOf_hierarchy_perm (valid : ∀ line ∈ bullets, line.isBullet = true)
    (distinct : (bullets.map Line.id).Nodup) :
    (((Graph.ofBullets bullets).drawn prune).links.normalize.edgesOf .hierarchy).Perm
      (LinkGraph.kept
        (((Graph.ofBullets bullets).drawn prune).forest.sites.filterMap Site.edge?)) := by
  have alone : ∀ edge ∈ drawnEdges prune bullets, (edge.kind == .hierarchy) = true →
      edge.flip ∉ drawnEdges prune bullets := fun edge member isHierarchy =>
    flip_not_mem_of_ne_link valid distinct member (by rw [eq_of_beq isHierarchy]; decide)
  have once := nodup_destinations (nodup_nodeIds_drawn valid distinct prune)
  refine (LinkGraph.edgesOf_normalize_perm (by decide) alone (holds_drawnEdges prune bullets)
    (unmerged_drawnEdges valid distinct prune)).trans (List.Perm.of_eq ?_)
  rw [← uniqueBy_filter, filter_hierarchy_drawnEdges, kept_hierarchyEdges]
  · refine uniqueBy_eq_self_iff.mpr ((List.pairwise_map.mp once).imp fun different => ?_)
    exact Bool.eq_false_iff.mpr fun same => different (Edge.sameAs_iff.mp same).2.1.symm
  · intro first second same
    rw [(Edge.sameAs_iff.mp same).2.2]

end Drawn

/-! ### What hierarchy edges reach -/

namespace LinkGraph

/-- The hierarchy edges that reach an id. -/
def hierarchyTo (links : LinkGraph) (id : String) : List Edge :=
  (links.edgesOf .hierarchy).filter fun edge => edge.destination == id

/-- A hierarchy edge leads from one id to another one. -/
def LeadsDown (links : LinkGraph) (upper lower : String) : Prop :=
  ⟨upper, lower, .hierarchy, true⟩ ∈ links.edgesOf .hierarchy

end LinkGraph

/-- A chain goes on with what its last member is related to. -/
theorem isChain_concat {α : Type} {related : α → α → Prop} {first : α} {rest : List α} {next : α}
    (chain : (first :: rest).IsChain related) (leads : related (rest.getLast?.getD first) next) :
    (first :: rest ++ [next]).IsChain related := by
  refine List.isChain_append.mpr ⟨chain, .singleton next, ?_⟩
  intro last isLast other isNext
  rw [List.getLast?_cons] at isLast
  obtain rfl := Option.mem_some.mp isLast
  obtain rfl := Option.mem_some.mp isNext
  exact leads

namespace Graph

/-- The hierarchy edges of a graph make a forest that reaches everything that is no step and starts
no chain, except from and to a node without id. -/
structure DrawsHierarchy (graph : Graph) : Prop where
  /-- An edge leads from a node to one of its children or to a later sibling. -/
  leads : ∀ edge ∈ graph.links.edgesOf .hierarchy, ∃ site ∈ graph.forest.sites,
    edge.destination = site.value.id ∧ ∃ source, edge.source = source.id ∧
      (site.parent? = some source ∨ source ∈ site.earlier.map Prod.fst)
  /-- The edges lead in no circle. -/
  acyclic : ∀ id, ¬ Relation.TransGen graph.links.LeadsDown id id
  /-- At most one edge reaches a node. -/
  once : ∀ id, (graph.links.hierarchyTo id).length ≤ 1
  /-- No edge reaches the start of a chain. -/
  flowBreak : ∀ site ∈ graph.forest.sites, site.value.kind = .flowBreak →
    graph.links.hierarchyTo site.value.id = []
  /-- An edge reaches a step exactly if it is the first step below a node that is no step itself,
  and both have an id. -/
  flow : ∀ site ∈ graph.forest.sites, site.value.kind = .flow →
    ((graph.links.hierarchyTo site.value.id).length = 1 ↔
      ∃ parent, site.parent? = some parent ∧ parent.kind ≠ .flow ∧
        (∀ tree ∈ site.earlier, tree.1.kind ≠ .flow) ∧ parent.id ≠ "" ∧ site.value.id ≠ "")
  /-- An edge reaches any other node below the top exactly if it has an id and what comes before it
  on the way from its parent has one. -/
  data : ∀ site ∈ graph.forest.sites, site.value.kind = .data →
    ∀ parent, site.parent? = some parent →
      ((graph.links.hierarchyTo site.value.id).length = 1 ↔
        (site.way.getLast?.getD parent).id ≠ "" ∧ site.value.id ≠ "")
  /-- Such a node is reached from its parent, directly or through the leaves before it. -/
  reaches : ∀ site ∈ graph.forest.sites, site.value.kind = .data →
    ∀ parent, site.parent? = some parent →
      (∀ node ∈ parent :: site.way ++ [site.value], node.id ≠ "") →
        (parent :: site.way ++ [site.value]).IsChain fun upper lower =>
          graph.links.LeadsDown upper.id lower.id

section Reached

variable {graph : Graph} (edges : (graph.links.edgesOf .hierarchy).Perm
    (LinkGraph.kept (graph.forest.sites.filterMap Site.edge?)))

include edges

theorem mem_edgesOf_hierarchy_iff {edge : Edge} :
    edge ∈ graph.links.edgesOf .hierarchy ↔
      (∃ site ∈ graph.forest.sites, site.edge? = some edge) ∧
        edge.source ≠ "" ∧ edge.destination ≠ "" := by
  have drawn : ∀ edge ∈ graph.forest.sites.filterMap Site.edge?, edge.mustRender = true := by
    intro edge member
    obtain ⟨site, -, found⟩ := List.mem_filterMap.mp member
    obtain ⟨_, -, rfl⟩ := Site.edge?_eq_some_iff.mp found
    rfl
  rw [edges.mem_iff, LinkGraph.mem_kept_iff drawn, List.mem_filterMap]

theorem leadsDown_of_source? {site : Site Node} (member : site ∈ graph.forest.sites)
    {source : Node} (found : site.source? = some source) (hasSource : source.id ≠ "")
    (hasId : site.value.id ≠ "") : graph.links.LeadsDown source.id site.value.id :=
  (mem_edgesOf_hierarchy_iff edges).mpr
    ⟨⟨site, member, Site.edge?_eq_some_iff.mpr ⟨source, found, rfl⟩⟩, hasSource, hasId⟩

/-- The leaves among the first trees below a node are led to, one after the other. -/
theorem isChain_dataLeaves {site : Site Node} (member : site ∈ graph.forest.sites)
    {parent : Node} (isParent : site.parent? = some parent) {front : List (Node × Forest Node)}
    (before : front <+: site.earlier)
    (named : ∀ node ∈ parent :: dataLeaves front, node.id ≠ "") :
    (parent :: dataLeaves front).IsChain fun upper lower =>
      graph.links.LeadsDown upper.id lower.id := by
  induction front using List.reverseRecOn with
  | nil => exact .singleton parent
  | append_singleton front tree inductionHypothesis =>
    have earlier : front <+: site.earlier := (List.prefix_append _ _).trans before
    by_cases isNext : tree.1.kind = .data ∧ tree.2.isEmpty = true
    · -- The leaf hangs on the one before it, or on the parent.
      have leaves : dataLeaves (front ++ [tree]) = dataLeaves front ++ [tree.1] :=
        Forest.dataLeaves_concat_of_data isNext.1 isNext.2
      rw [leaves, ← List.cons_append, List.forall_mem_append, List.forall_mem_singleton] at named
      rw [leaves, ← List.cons_append]
      have stands := Forest.mem_sites_of_earlier member before
      have source : Site.source? ⟨site.parent?, front, tree.1, tree.2⟩ =
          some ((dataLeaves front).getLast?.getD parent) := by
        rw [Site.source?_of_data ⟨site.parent?, front, tree.1, tree.2⟩ isNext.1 isParent,
          Site.way, if_pos isNext.2]
      exact isChain_concat (inductionHypothesis earlier named.1) (leadsDown_of_source? edges stands
        source (named.1 _ (List.mem_of_getLast? List.getLast?_cons)) named.2)
    · have same : dataLeaves (front ++ [tree]) = dataLeaves front :=
        Forest.dataLeaves_concat_of_other fun isData =>
          Bool.eq_false_iff.mpr fun isLeaf => isNext ⟨isData, isLeaf⟩
      rw [same] at named ⊢
      exact inductionHypothesis earlier named

variable (distinct : graph.nodeIds.Nodup)

include distinct

/-- The edges that reach a node are told by its site. -/
theorem mem_hierarchyTo_iff {site : Site Node} (member : site ∈ graph.forest.sites)
    {edge : Edge} :
    edge ∈ graph.links.hierarchyTo site.value.id ↔
      site.edge? = some edge ∧ edge.source ≠ "" ∧ edge.destination ≠ "" := by
  rw [LinkGraph.hierarchyTo, List.mem_filter, mem_edgesOf_hierarchy_iff edges, beq_iff_eq]
  constructor
  · rintro ⟨⟨⟨other, inside, found⟩, named⟩, reaches⟩
    obtain ⟨_, -, rfl⟩ := Site.edge?_eq_some_iff.mp found
    have distinctSites : (graph.forest.sites.map fun site => site.value.id).Nodup :=
      map_id_sites graph.forest ▸ distinct
    obtain rfl := List.inj_on_of_nodup_map distinctSites inside member reaches
    exact ⟨found, named⟩
  · rintro ⟨found, named⟩
    refine ⟨⟨⟨site, member, found⟩, named⟩, ?_⟩
    obtain ⟨_, -, rfl⟩ := Site.edge?_eq_some_iff.mp found
    rfl

theorem length_hierarchyTo_le_one (id : String) : (graph.links.hierarchyTo id).length ≤ 1 := by
  have destinations : ((graph.links.edgesOf .hierarchy).map Edge.destination).Nodup :=
    (edges.map Edge.destination).nodup_iff.mpr (nodup_destinations distinct)
  have listed : (graph.links.hierarchyTo id).Nodup := destinations.of_map.filter _
  refine (length_le_one_iff listed).mpr fun first firstMember second secondMember => ?_
  obtain ⟨firstInside, firstReaches⟩ := List.mem_filter.mp firstMember
  obtain ⟨secondInside, secondReaches⟩ := List.mem_filter.mp secondMember
  exact List.inj_on_of_nodup_map destinations firstInside secondInside
    ((eq_of_beq firstReaches).trans (eq_of_beq secondReaches).symm)

/-- One edge reaches a node exactly if its site says from where, and both ends have an id. -/
theorem length_hierarchyTo_eq_one_iff {site : Site Node} (member : site ∈ graph.forest.sites) :
    (graph.links.hierarchyTo site.value.id).length = 1 ↔
      ∃ source, site.source? = some source ∧ source.id ≠ "" ∧ site.value.id ≠ "" := by
  have short := length_hierarchyTo_le_one edges distinct site.value.id
  constructor
  · intro one
    obtain ⟨edge, single⟩ := List.length_eq_one_iff.mp one
    have reaches : edge ∈ graph.links.hierarchyTo site.value.id := single ▸ List.mem_cons_self
    obtain ⟨found, named⟩ := (mem_hierarchyTo_iff edges distinct member).mp reaches
    obtain ⟨source, known, rfl⟩ := Site.edge?_eq_some_iff.mp found
    exact ⟨source, known, named⟩
  · rintro ⟨source, known, named⟩
    have reaches := (mem_hierarchyTo_iff edges distinct member).mpr
      ⟨Site.edge?_eq_some_iff.mpr ⟨source, known, rfl⟩, named⟩
    exact Nat.le_antisymm short (List.length_pos_of_mem reaches)

/-- A hierarchy edge leads on in pre-order. -/
theorem idxOf_lt_of_leadsDown {upper lower : String}
    (leads : graph.links.LeadsDown upper lower) :
    graph.nodeIds.idxOf upper < graph.nodeIds.idxOf lower := by
  have member := edges.mem_iff.mp leads
  rw [← kept_hierarchyEdges] at member
  exact idxOf_lt_idxOf_of_sublist distinct (sublist_of_mem_kept_hierarchyEdges member)

theorem drawsHierarchy_of_perm : graph.DrawsHierarchy where
  leads := by
    intro edge member
    obtain ⟨⟨site, inside, found⟩, -⟩ := (mem_edgesOf_hierarchy_iff edges).mp member
    obtain ⟨source, known, rfl⟩ := Site.edge?_eq_some_iff.mp found
    exact ⟨site, inside, rfl, source, rfl, Site.source?_cases known⟩
  acyclic := by
    have rises : ∀ {upper lower : String}, Relation.TransGen graph.links.LeadsDown upper lower →
        graph.nodeIds.idxOf upper < graph.nodeIds.idxOf lower := by
      intro upper lower way
      induction way with
      | single leads => exact idxOf_lt_of_leadsDown edges distinct leads
      | tail _ leads sofar => exact sofar.trans (idxOf_lt_of_leadsDown edges distinct leads)
    exact fun id circle => Nat.lt_irrefl _ (rises circle)
  once := length_hierarchyTo_le_one edges distinct
  flowBreak := by
    intro site member kind
    refine List.eq_nil_iff_forall_not_mem.mpr fun edge reaches => ?_
    have found := ((mem_hierarchyTo_iff edges distinct member).mp reaches).1
    rw [Site.edge?, Site.source?, kind] at found
    exact absurd found (by simp)
  flow := by
    intro site member kind
    rw [length_hierarchyTo_eq_one_iff edges distinct member]
    simp only [Site.source?_of_flow site kind, and_assoc]
  data := by
    intro site member kind parent isParent
    rw [length_hierarchyTo_eq_one_iff edges distinct member,
      Site.source?_of_data site kind isParent]
    simp only [Option.some_inj, exists_eq_left']
  reaches := by
    intro site member kind parent isParent named
    rw [List.forall_mem_append, List.forall_mem_singleton] at named
    refine isChain_concat ?_ (leadsDown_of_source? edges member
      (Site.source?_of_data site kind isParent)
      (named.1 _ (List.mem_of_getLast? List.getLast?_cons)) named.2)
    by_cases isLeaf : site.below.isEmpty = true
    · rw [Site.way, if_pos isLeaf] at named ⊢
      exact isChain_dataLeaves edges member isParent List.prefix_rfl named.1
    · rw [Site.way, if_neg isLeaf]
      exact .singleton parent

end Reached

/-! ### Compiled outlines -/

/-- Where no two bullets share an id, the hierarchy edges of the compiled outline make a forest that
reaches everything that is no step and starts no chain, except from and to a node without id. -/
theorem drawsHierarchy_compile {lines : List Line} {built : Graph}
    (succeeds : build lines = .ok built) (distinct : ((bulletsOf lines).map Line.id).Nodup)
    (prune : Bool) : ∃ graph, compile prune lines = .ok graph ∧ graph.DrawsHierarchy := by
  have valid : ∀ line ∈ bulletsOf lines, line.isBullet = true :=
    fun _ member => isBullet_of_mem_bulletsOf member
  refine ⟨_, compile_eq_ok (firstBadIndent?_of_build succeeds) prune, drawsHierarchy_of_perm ?_ ?_⟩
  · rw [links_normalize, forest_normalize]
    exact edgesOf_hierarchy_perm valid distinct
  · rw [nodeIds_normalize]
    exact nodup_nodeIds_drawn valid distinct prune

/-- A folded bullet is drawn as a leaf where it stood with what was below it, and leads to the leaf
beside it. -/
theorem drawsHierarchy_compile_fold :
    let lines : List Line :=
      [{ depth := 0, explicitId := some "a" },
        { depth := 1, explicitId := some "b" },
        { depth := 1, explicitId := some "c", visibility := .fold },
        { depth := 2, explicitId := some "d" },
        { depth := 1, explicitId := some "e", kind := .flowBreak },
        { depth := 1, explicitId := some "f", kind := .flow }]
    build lines = .ok (ofBullets lines) ∧ ((bulletsOf lines).map Line.id).Nodup ∧
      ∃ graph, compile true lines = .ok graph ∧ ["a", "c", "b"].IsChain graph.links.LeadsDown := by
  intro lines
  have succeeds : build lines = .ok (ofBullets lines) := by decide +kernel
  have distinct : ((bulletsOf lines).map Line.id).Nodup := by decide +kernel
  obtain ⟨graph, compiled, draws⟩ := drawsHierarchy_compile succeeds distinct true
  obtain rfl : _ = graph := Except.ok.inj
    ((compile_eq_ok (firstBadIndent?_of_build succeeds) true).symm.trans compiled)
  obtain ⟨site, member, kind, ways⟩ : ∃ site ∈
      (((ofBullets (bulletsOf lines)).drawn true).normalize).forest.sites,
      site.value.kind = .data ∧ (site.parent?.map fun parent =>
        (parent :: site.way ++ [site.value]).map Node.id) = some ["a", "c", "b"] := by
    decide +kernel
  obtain ⟨parent, isParent, way⟩ := Option.map_eq_some_iff.mp ways
  have named : ∀ id ∈ (parent :: site.way ++ [site.value]).map Node.id, id ≠ "" := by
    rw [way]
    decide
  have chain := draws.reaches site member kind parent isParent fun node inside =>
    named node.id (List.mem_map_of_mem inside)
  rw [← List.isChain_map Node.id, way] at chain
  exact ⟨succeeds, distinct, _, compiled, chain⟩

/-- Nothing leads to a bullet without id, though it stands below another one. -/
theorem hierarchyTo_compile_unnamed :
    let lines : List Line := [{ depth := 0, explicitId := some "p" }, { depth := 1 }]
    build lines = .ok (ofBullets lines) ∧ ((bulletsOf lines).map Line.id).Nodup ∧
      ∃ graph, compile false lines = .ok graph ∧ ∃ site ∈ graph.forest.sites,
        site.value.kind = .data ∧ site.parent? ≠ none ∧
          (graph.links.hierarchyTo site.value.id).length ≠ 1 := by
  intro lines
  have legal : firstBadIndent? 0 (bulletsOf lines) = none := by decide +kernel
  exact ⟨by decide +kernel, by decide +kernel, _, compile_eq_ok legal false, by decide +kernel⟩

end Graph

end OutlineDiagram
