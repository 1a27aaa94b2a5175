/-
This file says which nodes survive pruning, and what stands for the others, by the
ids on the way from the top. What a walk inherits is a function of that way, so
pruning keeps the paths that pass a test, and drawing siblings in another order
before or after cannot change which nodes are left.
-/

import Mathlib.Data.List.Nodup
import OutlineDiagram.Graph.Compile
import OutlineDiagram.Proofs.Document.Chain
import OutlineDiagram.Proofs.Forest.Order
import OutlineDiagram.Proofs.Graph.Building

namespace OutlineDiagram

/-! ### Marked ids -/

namespace IdSet

theorem mem_foldl_insert (start : IdSet) (ids : List String) (id : String) :
    id ∈ ids.foldl insert start ↔ id ∈ start ∨ id ∈ ids := by
  induction ids generalizing start with
  | nil => simp
  | cons first rest inductionHypothesis =>
    rw [List.foldl_cons, inductionHypothesis, mem_insert, List.mem_cons, or_assoc]

theorem mem_ofList {ids : List String} {id : String} : id ∈ ofList ids ↔ id ∈ ids := by
  rw [ofList, mem_foldl_insert]
  exact or_iff_right List.not_mem_nil

end IdSet

/-- An id is marked when some bullet that has it is. -/
theorem mem_markedIds_iff {bullets : List Line} {visibility : Visibility} {id : String} :
    id ∈ markedIds visibility bullets ↔
      ∃ marked ∈ bullets, marked.visibility = visibility ∧ marked.id = id := by
  rw [markedIds, IdSet.mem_ofList, List.mem_map]
  simp only [List.mem_filter, beq_iff_eq, and_assoc]

/-- Where no two bullets share an id, the marks of the ids are the marks of the bullets. -/
theorem contains_markedIds {bullets : List Line} (distinct : (bullets.map Line.id).Nodup)
    {line : Line} (member : line ∈ bullets) (visibility : Visibility) :
    (markedIds visibility bullets).contains line.id = (line.visibility == visibility) := by
  rw [Bool.eq_iff_iff, IdSet.contains_iff, mem_markedIds_iff, beq_iff_eq]
  constructor
  · rintro ⟨other, inside, marked, same⟩
    have equal : other = line := List.inj_on_of_nodup_map distinct inside member same
    rw [← equal]
    exact marked
  · exact fun marked => ⟨line, member, marked, rfl⟩

/-! ### What a path inherits -/

namespace PathState

variable (foldIds hideIds : IdSet)

/-- What is inherited below the nodes with given ids, closest first. -/
def along : List String → PathState
  | [] => {}
  | id :: above => (along above).enter foldIds hideIds id

theorem isHidden_along (above : List String) :
    (along foldIds hideIds above).isHidden = above.any hideIds.contains := by
  induction above with
  | nil => rfl
  | cons id above inductionHypothesis =>
    rw [along, enter, inductionHypothesis, List.any_cons, Bool.or_comm]

/-- The outermost folded node is the last one of the way up. -/
theorem floor?_along (above : List String) :
    (along foldIds hideIds above).floor? = (above.filter foldIds.contains).getLast? := by
  induction above with
  | nil => rfl
  | cons id above inductionHypothesis =>
    rw [along, enter, inductionHypothesis]
    cases folded : foldIds.contains id with
    | true => simp [folded, List.getLast?_cons, Option.or_some]
    | false => simp [folded]

/-- A node with the ids above it, closest first, survives. -/
def survives (path : List String × String) : Bool :=
  (along foldIds hideIds path.1).keeps foldIds hideIds path.2

/-- A node survives when nothing on its way is hidden and nothing above it is folded. -/
theorem survives_eq (path : List String × String) :
    survives foldIds hideIds path =
      (!(path.2 :: path.1).any hideIds.contains && !path.1.any foldIds.contains) := by
  have hidden := isHidden_along foldIds hideIds (path.2 :: path.1)
  have folded : ((path.1.filter foldIds.contains).getLast?).isNone =
      !path.1.any foldIds.contains := by
    rw [Bool.eq_iff_iff]
    simp
  rw [along] at hidden
  rw [survives, keeps, hidden, floor?_along, folded]

/-- What lies below a node that is gone is gone as well. -/
theorem survives_of_suffix {path : List String × String} {above : List String} {id : String}
    (suffix : id :: above <:+ path.1) (shown : survives foldIds hideIds path = true) :
    survives foldIds hideIds (above, id) = true := by
  rw [survives_eq, Bool.and_eq_true, Bool.not_eq_true', Bool.not_eq_true', List.any_eq_false,
    List.any_eq_false] at shown ⊢
  refine ⟨fun other member => shown.1 other ?_, fun other member => shown.2 other ?_⟩
  · exact List.mem_cons_of_mem _ (suffix.subset member)
  · exact suffix.subset (List.mem_cons_of_mem _ member)

end PathState

/-! ### Pruned forests -/

namespace Forest

/-- Pruning keeps the paths of the nodes that survive, in their order. -/
theorem pathsFrom_pruneForest (foldIds hideIds : IdSet) (above : List Node)
    (forest : Forest Node) :
    (pruneForest foldIds hideIds (.along foldIds hideIds (above.map Node.id)) forest).pathsFrom
        above =
      (forest.pathsFrom above).filter fun path =>
        PathState.survives foldIds hideIds (path.1.map Node.id, path.2.id) := by
  induction forest generalizing above with
  | nil => rfl
  | cons node below after belowHypothesis afterHypothesis =>
    have belowPaths := belowHypothesis (node :: above)
    rw [List.map_cons, PathState.along] at belowPaths
    rw [pruneForest, pathsFrom, List.filter_cons, List.filter_append, ← afterHypothesis,
      ← belowPaths]
    by_cases kept : PathState.survives foldIds hideIds (above.map Node.id, node.id) = true
    · rw [if_pos kept]
      exact congrArg (pathsFrom above) (if_pos kept)
    · have noneBelow : (below.pathsFrom (node :: above)).filter (fun path =>
          PathState.survives foldIds hideIds (path.1.map Node.id, path.2.id)) = [] := by
        refine List.filter_eq_nil_iff.mpr fun path member shown => kept ?_
        refine PathState.survives_of_suffix foldIds hideIds ?_ shown
        exact (suffix_of_mem_pathsFrom member).map Node.id
      rw [if_neg kept, belowPaths, noneBelow, List.nil_append]
      exact congrArg (pathsFrom above) (if_neg kept)

end Forest

/-- The table of a walk holds for each path what stands for its end. -/
theorem targetsFrom_eq (foldIds hideIds : IdSet) (above : List Node) (forest : Forest Node) :
    targetsFrom foldIds hideIds (.along foldIds hideIds (above.map Node.id)) forest =
      (forest.pathsFrom above).map fun path =>
        (path.2.id, (PathState.along foldIds hideIds (path.1.map Node.id)).target foldIds hideIds
          path.2.id) := by
  induction forest generalizing above with
  | nil => rfl
  | cons node below after belowHypothesis afterHypothesis =>
    rw [targetsFrom, Forest.pathsFrom, List.map_cons, List.map_append, ← afterHypothesis,
      ← belowHypothesis]
    rfl

/-! ### Ids on the way -/

namespace Forest

/-- The id of each node with the ids above it, closest first. -/
def idPaths (forest : Forest Node) : List (List String × String) := (forest.map Node.id).paths

theorem idPaths_eq (forest : Forest Node) :
    forest.idPaths = forest.paths.map fun path => (path.1.map Node.id, path.2.id) :=
  paths_map Node.id forest

theorem map_snd_idPaths (forest : Forest Node) :
    forest.idPaths.map Prod.snd = forest.toList.map Node.id := by
  rw [idPaths, paths, map_snd_pathsFrom, toList_map]

theorem idPaths_withSizes (forest : Forest Node) : forest.withSizes.idPaths = forest.idPaths := by
  rw [idPaths, map_id_withSizes, idPaths]

theorem idPaths_arrange_perm (forest : Forest Node) :
    forest.arrange.idPaths.Perm forest.idPaths := by
  rw [idPaths_eq, idPaths_eq]
  exact (paths_arrange_perm forest).map _

theorem idPaths_pruneForest (foldIds hideIds : IdSet) (forest : Forest Node) :
    (pruneForest foldIds hideIds {} forest).idPaths =
      forest.idPaths.filter (PathState.survives foldIds hideIds) := by
  have kept := pathsFrom_pruneForest foldIds hideIds [] forest
  rw [List.map_nil, PathState.along] at kept
  rw [idPaths_eq, idPaths_eq, paths, kept, List.filter_map]
  rfl

/-- The ids on the ways through nested bullets are those of their chains. -/
theorem idPaths_nest {bullets : List Line} (valid : ∀ line ∈ bullets, line.isBullet = true) :
    ((nest Line.depth bullets).map Node.ofLine).idPaths =
      (withChains [] bullets).map fun place => (place.1.map Line.id, place.2.id) := by
  rw [idPaths, map_map, paths_map, paths_nest valid]
  rfl

end Forest

namespace Graph

/-- A graph that is drawn has the nodes that survive, on their old ways. -/
theorem idPaths_drawn_perm (prune : Bool) (graph : Graph) :
    (graph.drawn prune).forest.idPaths.Perm
      (if prune then graph.forest.idPaths.filter (PathState.survives graph.foldIds graph.hideIds)
        else graph.forest.idPaths) := by
  have full : graph.withSizes.withImpliedEdges.forest.idPaths.Perm graph.forest.idPaths := by
    refine (Forest.idPaths_arrange_perm _).trans (List.Perm.of_eq ?_)
    exact Forest.idPaths_withSizes graph.forest
  cases prune with
  | false => exact full
  | true =>
    refine (Forest.idPaths_arrange_perm _).trans ?_
    rw [if_pos rfl]
    refine (List.Perm.of_eq (Forest.idPaths_pruneForest _ _ _)).trans ?_
    exact full.filter _

theorem nodeIds_normalize (graph : Graph) : graph.normalize.nodeIds = graph.nodeIds := rfl

theorem forest_normalize (graph : Graph) : graph.normalize.forest = graph.forest := rfl

theorem links_normalize (graph : Graph) : graph.normalize.links = graph.links.normalize := rfl

theorem compile_eq_ok {lines : List Line}
    (legal : firstBadIndent? 0 (bulletsOf lines) = none) (prune : Bool) :
    compile prune lines = .ok ((ofBullets (bulletsOf lines)).drawn prune).normalize := by
  rw [compile, build_eq, legal]
  rfl

theorem firstBadIndent?_of_build {lines : List Line} {built : Graph}
    (succeeds : build lines = .ok built) : firstBadIndent? 0 (bulletsOf lines) = none := by
  rw [build_eq] at succeeds
  split at succeeds
  · exact absurd succeeds (by simp)
  · assumption

theorem eq_ofBullets_of_build {lines : List Line} {built : Graph}
    (succeeds : build lines = .ok built) : built = ofBullets (bulletsOf lines) := by
  have legal := firstBadIndent?_of_build succeeds
  rw [build_eq, legal] at succeeds
  exact (Except.ok.inj succeeds).symm

end Graph

/-! ### Bullets -/

section Bullets

variable {bullets chain : List Line} {line : Line}

theorem filter_contains_markedIds (distinct : (bullets.map Line.id).Nodup)
    (inside : ∀ other ∈ chain, other ∈ bullets) (visibility : Visibility) :
    (chain.map Line.id).filter (markedIds visibility bullets).contains =
      (chain.filter fun other => other.visibility == visibility).map Line.id := by
  rw [List.filter_map]
  refine congrArg (List.map Line.id) (List.filter_congr fun other member => ?_)
  exact contains_markedIds distinct (inside other member) visibility

theorem any_contains_markedIds (distinct : (bullets.map Line.id).Nodup)
    (inside : ∀ other ∈ chain, other ∈ bullets) (visibility : Visibility) :
    (chain.map Line.id).any (markedIds visibility bullets).contains =
      chain.any fun other => other.visibility == visibility := by
  rw [List.any_map, Bool.eq_iff_iff, List.any_eq_true, List.any_eq_true]
  refine exists_congr fun other => and_congr_right fun member => ?_
  rw [Function.comp_apply, contains_markedIds distinct (inside other member)]

theorem mem_bullets_of_mem_place (place : (chain, line) ∈ withChains [] bullets) :
    ∀ other ∈ line :: chain, other ∈ bullets := by
  intro other member
  rcases List.mem_cons.mp member with rfl | above
  · rw [← map_snd_withChains [] bullets]
    exact List.mem_map_of_mem place
  · exact mem_of_mem_chain place above

/-- Where no two bullets share an id, a bullet survives when nothing on its way is marked as
hidden and nothing above it as folded. -/
theorem survives_bullet_iff (distinct : (bullets.map Line.id).Nodup)
    (place : (chain, line) ∈ withChains [] bullets) :
    PathState.survives (markedIds .fold bullets) (markedIds .hide bullets)
        (chain.map Line.id, line.id) = true ↔
      (∀ other ∈ line :: chain, other.visibility ≠ .hide) ∧
        ∀ other ∈ chain, other.visibility ≠ .fold := by
  have inside := mem_bullets_of_mem_place place
  have hidden := any_contains_markedIds distinct inside .hide
  have folded := any_contains_markedIds distinct
    (fun other member => inside other (List.mem_cons_of_mem _ member)) .fold
  rw [List.map_cons] at hidden
  rw [PathState.survives_eq, hidden, folded, Bool.and_eq_true, Bool.not_eq_true',
    Bool.not_eq_true', List.any_eq_false, List.any_eq_false]
  simp only [beq_iff_eq, ne_eq]

/-- Where no two bullets share an id, an id has one way. -/
theorem place_unique (distinct : (bullets.map Line.id).Nodup) {other : List Line × Line}
    (place : (chain, line) ∈ withChains [] bullets) (further : other ∈ withChains [] bullets)
    (same : other.2.id = line.id) : other = (chain, line) := by
  rw [← map_id_withChains []] at distinct
  exact List.inj_on_of_nodup_map distinct further place same

/-- Where no two bullets share an id, the nodes of a pruned graph are the bullets that survive. -/
theorem mem_nodeIds_drawn (valid : ∀ line ∈ bullets, line.isBullet = true)
    (distinct : (bullets.map Line.id).Nodup) (place : (chain, line) ∈ withChains [] bullets) :
    line.id ∈ ((Graph.ofBullets bullets).drawn true).nodeIds ↔
      (∀ other ∈ line :: chain, other.visibility ≠ .hide) ∧
        ∀ other ∈ chain, other.visibility ≠ .fold := by
  have ways := Graph.idPaths_drawn_perm true (Graph.ofBullets bullets)
  have start : (Graph.ofBullets bullets).forest.idPaths = _ := Forest.idPaths_nest valid
  rw [if_pos rfl, start] at ways
  rw [← survives_bullet_iff distinct place, Graph.nodeIds, Graph.nodes, ← Forest.map_snd_idPaths,
    (ways.map Prod.snd).mem_iff, List.mem_map]
  constructor
  · rintro ⟨way, found, same⟩
    obtain ⟨listed, shown⟩ := List.mem_filter.mp found
    obtain ⟨other, further, rfl⟩ := List.mem_map.mp listed
    rw [place_unique distinct place further same] at shown
    exact shown
  · intro shown
    exact ⟨_, List.mem_filter.mpr ⟨List.mem_map_of_mem place, shown⟩, rfl⟩

end Bullets

end OutlineDiagram
