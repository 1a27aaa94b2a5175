/-
This file says which bullets a pruned graph shows, by their places. The nodes of the
full graph are those of all bullets, each below the nodes of its chain. A marker is
kept with the id of its bullet, so it counts at every bullet with that id: a bullet is
left out when its own id or one above it is hidden, or one above it is folded. Nothing
outside the subtrees of the bullets with that id is left out.
-/

import OutlineDiagram.Line.Reader
import OutlineDiagram.Proofs.Graph.Compiled
import OutlineDiagram.Proofs.Graph.Indentation

namespace OutlineDiagram

/-! ### Forests without sizes -/

/-- The node without the number of nodes below it. -/
def Node.unsized (node : Node) : Node := { node with size := 0 }

namespace Forest

theorem map_unsized_withSizes (forest : Forest Node) :
    forest.withSizes.map Node.unsized = forest.map Node.unsized := by
  induction forest with
  | nil => rfl
  | cons node below after belowHypothesis afterHypothesis =>
    rw [withSizes, map, map, belowHypothesis, afterHypothesis]
    rfl

theorem paths_map_unsized (forest : Forest Node) :
    (forest.map Node.unsized).paths =
      forest.paths.map fun path => (path.1.map Node.unsized, path.2.unsized) :=
  paths_map Node.unsized forest

end Forest

/-! ### The full graph -/

/-- The nodes of a bullet and of those above it. -/
def nodesAt (place : List Line × Line) : List Node × Node :=
  (place.1.map Node.ofLine, Node.ofLine place.2)

variable {bullets : List Line}

/-- Before anything is pruned, the nodes are those of all places. -/
theorem paths_fullGraph_perm (valid : ∀ line ∈ bullets, line.isBullet = true) :
    ((fullGraph bullets).forest.map Node.unsized).paths.Perm
      ((withChains [] bullets).map nodesAt) := by
  have unsized : (Graph.ofBullets bullets).withSizes.forest.map Node.unsized =
      (Graph.ofBullets bullets).forest := by
    show ((Graph.ofBullets bullets).forest.withSizes).map Node.unsized = _
    rw [Forest.map_unsized_withSizes, Graph.ofBullets, Forest.map_map]
    rfl
  have places : (Graph.ofBullets bullets).forest.paths = (withChains [] bullets).map nodesAt :=
    paths_map_ofLine_nest valid
  rw [← places, ← unsized, Forest.paths_map_unsized, Forest.paths_map_unsized]
  exact (Forest.paths_arrange_perm (Graph.ofBullets bullets).withSizes.forest).map _

/-- A node of the full graph has the ids of a place on its path, and the highlight of the bullet
there. -/
theorem exists_place_of_mem_paths (valid : ∀ line ∈ bullets, line.isBullet = true)
    {path : List Node × Node} (member : path ∈ (fullGraph bullets).forest.paths) :
    ∃ place ∈ withChains [] bullets, path.1.map Node.id = place.1.map Line.id ∧
      path.2.id = place.2.id ∧ path.2.isHighlighted = place.2.isHighlighted := by
  have unsized : (path.1.map Node.unsized, path.2.unsized) ∈
      (withChains [] bullets).map nodesAt := by
    rw [← (paths_fullGraph_perm valid).mem_iff, Forest.paths_map_unsized]
    exact List.mem_map_of_mem member
  obtain ⟨place, found, same⟩ := List.mem_map.mp unsized
  obtain ⟨above, own⟩ := Prod.mk.inj same
  have ids := congrArg (List.map Node.id) above
  rw [List.map_map, List.map_map] at ids
  exact ⟨place, found, ids.symm, (congrArg Node.id own).symm,
    (congrArg Node.isHighlighted own).symm⟩

/-! ### Closed places -/

/-- A marked bullet closes a place: hidden, it has the id of the bullet there or of one above it, and
folded, of one above it. -/
def Closes (marked : Line) (place : List Line × Line) : Prop :=
  marked.visibility = .hide ∧ (∃ other ∈ place.2 :: place.1, marked.id = other.id) ∨
    marked.visibility = .fold ∧ ∃ other ∈ place.1, marked.id = other.id

instance (marked : Line) (place : List Line × Line) : Decidable (Closes marked place) :=
  inferInstanceAs (Decidable (_ ∨ _))

/-- A place is closed by a marked bullet. -/
def IsClosed (bullets : List Line) (place : List Line × Line) : Prop :=
  ∃ marked ∈ bullets, Closes marked place

instance (bullets : List Line) : DecidablePred (IsClosed bullets) :=
  fun place => inferInstanceAs (Decidable (∃ marked ∈ bullets, Closes marked place))

theorem shows_map_iff {α : Type} (graph : Graph) (change : α → Node) (path : List α × α) :
    graph.Shows (path.1.map change, change path.2) ↔
      (∀ value ∈ path.2 :: path.1, (change value).id ∉ graph.hideIds) ∧
        ∀ value ∈ path.1, (change value).id ∉ graph.foldIds := by
  show (∀ node ∈ (path.2 :: path.1).map change, node.id ∉ graph.hideIds) ∧
    (∀ node ∈ path.1.map change, node.id ∉ graph.foldIds) ↔ _
  rw [List.forall_mem_map, List.forall_mem_map]

/-- A path of nodes leads to a surviving one when the place is not closed. -/
theorem shows_nodesAt_iff {graph : Graph} (folded : graph.foldIds = markedIds .fold bullets)
    (hidden : graph.hideIds = markedIds .hide bullets) (place : List Line × Line) :
    graph.Shows (nodesAt place) ↔ ¬ IsClosed bullets place := by
  rw [nodesAt, shows_map_iff, hidden, folded]
  show (∀ other ∈ place.2 :: place.1, other.id ∉ markedIds .hide bullets) ∧
    (∀ other ∈ place.1, other.id ∉ markedIds .fold bullets) ↔ _
  constructor
  · rintro ⟨noneHides, noneFolds⟩ ⟨marked, inside, closes⟩
    rcases closes with ⟨hides, other, isOn, same⟩ | ⟨folds, other, isAbove, same⟩
    · exact noneHides other isOn (mem_markedIds_iff.mpr ⟨marked, inside, hides, same⟩)
    · exact noneFolds other isAbove (mem_markedIds_iff.mpr ⟨marked, inside, folds, same⟩)
  · intro opened
    refine ⟨fun other isOn found => opened ?_, fun other isAbove found => opened ?_⟩
    · obtain ⟨marked, inside, hides, same⟩ := mem_markedIds_iff.mp found
      exact ⟨marked, inside, Or.inl ⟨hides, other, isOn, same⟩⟩
    · obtain ⟨marked, inside, folds, same⟩ := mem_markedIds_iff.mp found
      exact ⟨marked, inside, Or.inr ⟨folds, other, isAbove, same⟩⟩

/-! ### Compiled outlines -/

/-- The nodes of a pruned graph are those of the places that no marked bullet closes. -/
theorem paths_prunedGraph_perm (valid : ∀ line ∈ bullets, line.isBullet = true) :
    ((prunedGraph bullets).forest.map Node.unsized).paths.Perm
      (((withChains [] bullets).filter fun place => ¬ IsClosed bullets place).map nodesAt) := by
  have shows : ∀ place : List Line × Line, decide (¬ IsClosed bullets place) =
      decide ((fullGraph bullets).Shows (nodesAt place)) := fun place =>
    decide_eq_decide.mpr (shows_nodesAt_iff rfl rfl place).symm
  have sameIds : ∀ path : List Node × Node,
      decide ((fullGraph bullets).Shows (path.1.map Node.unsized, path.2.unsized)) =
        decide ((fullGraph bullets).Shows path) := by
    intro path
    rw [decide_eq_decide, shows_map_iff]
    rfl
  calc ((prunedGraph bullets).forest.map Node.unsized).paths
    _ = (fullGraph bullets).prunedForest.arrange.paths.map fun path =>
          (path.1.map Node.unsized, path.2.unsized) := by
        rw [forest_prunedGraph, Forest.paths_map_unsized]
    _ |>.Perm ((fullGraph bullets).prunedForest.paths.map fun path =>
          (path.1.map Node.unsized, path.2.unsized)) := (Forest.paths_arrange_perm _).map _
    _ = ((fullGraph bullets).forest.map Node.unsized).paths.filter fun path =>
          (fullGraph bullets).Shows path := by
        rw [Graph.paths_prunedForest, Forest.paths_map_unsized, List.filter_map]
        exact congrArg _ (List.filter_congr fun path _ => (sameIds path).symm)
    _ |>.Perm (((withChains [] bullets).map nodesAt).filter fun path =>
          (fullGraph bullets).Shows path) := (paths_fullGraph_perm valid).filter _
    _ = _ := by
        rw [List.filter_map]
        exact congrArg _ (List.filter_congr fun place _ => (shows place).symm)

/-- Where no two bullets share an id, a marker counts at its own bullet only. -/
theorem isClosed_iff_of_distinct (distinct : (bullets.map Line.id).Nodup)
    {place : List Line × Line} (member : place ∈ withChains [] bullets) :
    IsClosed bullets place ↔ (∃ other ∈ place.2 :: place.1, other.visibility = .hide) ∨
      ∃ other ∈ place.1, other.visibility = .fold := by
  have inside : ∀ other ∈ place.2 :: place.1, other ∈ bullets := mem_bullets_of_mem_place member
  have own : ∀ other ∈ place.2 :: place.1, ∀ marked ∈ bullets, marked.id = other.id →
      marked = other := fun other isOn marked declared same =>
    List.inj_on_of_nodup_map distinct declared (inside other isOn) same
  constructor
  · rintro ⟨marked, declared, ⟨hides, other, isOn, same⟩ | ⟨folds, other, isAbove, same⟩⟩
    · exact Or.inl ⟨other, isOn, own other isOn marked declared same ▸ hides⟩
    · have isOn := List.mem_cons_of_mem place.2 isAbove
      exact Or.inr ⟨other, isAbove, own other isOn marked declared same ▸ folds⟩
  · rintro (⟨other, isOn, hides⟩ | ⟨other, isAbove, folds⟩)
    · exact ⟨other, inside other isOn, Or.inl ⟨hides, other, isOn, rfl⟩⟩
    · exact ⟨other, inside other (List.mem_cons_of_mem _ isAbove),
        Or.inr ⟨folds, other, isAbove, rfl⟩⟩

namespace Graph

/-- The nodes of a pruned diagram are those of the bullets that no marker closes. A marker counts at
every bullet with the id of its own, and so only there where no two bullets share an id. -/
theorem paths_compile_perm {lines : List Line} {built : Graph}
    (succeeds : build lines = .ok built) :
    ∃ graph, compile true lines = .ok graph ∧
      (graph.forest.map Node.unsized).paths.Perm
        (((withChains [] (bulletsOf lines)).filter fun place =>
          ¬ IsClosed (bulletsOf lines) place).map nodesAt) ∧
      (((bulletsOf lines).map Line.id).Nodup → ∀ place ∈ withChains [] (bulletsOf lines),
        (IsClosed (bulletsOf lines) place ↔
          (∃ other ∈ place.2 :: place.1, other.visibility = .hide) ∨
            ∃ other ∈ place.1, other.visibility = .fold)) := by
  have valid : ∀ line ∈ bulletsOf lines, line.isBullet = true :=
    fun line member => isBullet_of_mem_bulletsOf member
  have nodes := paths_prunedGraph_perm valid
  rw [prunedGraph] at nodes
  exact ⟨_, compile_eq_ok (firstBadIndent?_of_build succeeds) true, nodes,
    fun distinct place member => isClosed_iff_of_distinct distinct member⟩

/-- A fold marker takes out what is below another bullet with the same id, and a hide marker another
bullet with the same id, but what has none of these ids on its path stays. -/
theorem paths_compile_perm_shared :
    let lines : List Line :=
      [{ depth := 0, explicitId := some "x", label := "A", visibility := .fold },
        { depth := 0, explicitId := some "x", label := "B" },
        { depth := 1, explicitId := some "y", label := "C" },
        { depth := 0, explicitId := some "y", label := "D" },
        { depth := 0, explicitId := some "z", label := "E", visibility := .hide },
        { depth := 1, explicitId := some "z", label := "F" }]
    build lines = .ok (ofBullets lines) ∧ ∃ graph, compile true lines = .ok graph ∧
      (graph.forest.map Node.unsized).paths.Perm
        [([], { id := "x", label := "A" }), ([], { id := "x", label := "B" }),
          ([], { id := "y", label := "D" })] := by
  intro lines
  have succeeds : build lines = .ok (ofBullets lines) := by decide +kernel
  obtain ⟨graph, compiled, nodes, -⟩ := paths_compile_perm succeeds
  refine ⟨succeeds, graph, compiled, nodes.trans (List.Perm.of_eq ?_)⟩
  decide +kernel

/-- A bullet without a marker and with nothing above it is left out, because an earlier one with its
id is hidden. -/
theorem nodes_compile_shared_hide :
    let lines := (Line.readAll 2 ["- A // x [x]", "- B // x"] (IdSupply.numbered [])).1
    build lines = .ok (ofBullets lines) ∧ ∃ graph, compile true lines = .ok graph ∧
      ∃ bullet, ([], bullet) ∈ withChains [] (bulletsOf lines) ∧ bullet.visibility = .normal ∧
        ∀ node ∈ graph.nodes, node.label ≠ bullet.label := by
  intro lines
  have legal : firstBadIndent? 0 (bulletsOf lines) = none := by decide +kernel
  refine ⟨by decide +kernel, _, compile_eq_ok legal true, lines.getD 1 {}, ?_, ?_, ?_⟩
  · decide +kernel
  · decide +kernel
  · decide +kernel

end Graph

end OutlineDiagram
