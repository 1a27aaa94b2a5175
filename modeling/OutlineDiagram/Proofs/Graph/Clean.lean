/-
This file says when the links of a compiled outline are clean. Written links and
rerouted edges are never loops, and every edge is new to the normal form: drawn, and
no half of a pair. So what can go wrong comes from implied edges, and it does where
two bullets share an id.
-/

import OutlineDiagram.Line.Reader
import OutlineDiagram.Proofs.Graph.Compiled
import OutlineDiagram.Proofs.Links.Clean

namespace OutlineDiagram

/-! ### Edges of a drawn graph -/

/-- An edge as a drawn graph holds it: it is drawn, and no half of a pair. -/
def Edge.IsFresh (edge : Edge) : Prop := edge.kind ≠ .bilink ∧ edge.mustRender = true

theorem isFresh_of_mem_kept {edges : List Edge} (single : ∀ edge ∈ edges, edge.kind ≠ .bilink) :
    ∀ edge ∈ LinkGraph.kept edges, edge.IsFresh := by
  intro edge member
  obtain ⟨given, inside, rfl⟩ := LinkGraph.exists_of_mem_kept member
  exact ⟨single given inside, rfl⟩

theorem isFresh_of_mem_impliedEdges {forest : Forest Node} :
    ∀ edge ∈ impliedEdges forest, edge.IsFresh := by
  refine List.forall_mem_append.mpr ⟨isFresh_of_mem_kept fun edge member => ?_,
    isFresh_of_mem_kept fun edge member => ?_⟩
  · rw [(sublist_of_mem_hierarchyEdgesFrom member).1]
    simp
  · obtain ⟨_, _, _, _, rfl⟩ := exists_nodes_of_mem_flowEdges member
    simp

/-- The edges of a drawn graph that no forest implies: links as they were written, or what was
rerouted. -/
def linkedEdges (prune : Bool) (bullets : List Line) : List Edge :=
  if prune then
    LinkGraph.kept ((fullGraph bullets).links.edges.filterMap
      (reroute? (fullGraph bullets).rerouteTable))
  else LinkGraph.kept (bullets.flatMap authoredLinks)

variable {bullets : List Line} {prune : Bool}

theorem holds_linkedEdges (prune : Bool) (bullets : List Line) :
    ((Graph.ofBullets bullets).drawn prune).links.Holds
      (linkedEdges prune bullets ++ impliedEdges ((Graph.ofBullets bullets).drawn prune).forest) := by
  cases prune with
  | false => exact holds_fullEdges bullets
  | true => exact holds_prunedEdges bullets

theorem isFresh_of_mem_fullEdges : ∀ edge ∈ fullEdges bullets, edge.IsFresh := by
  refine List.forall_mem_append.mpr ⟨fun edge member => ?_, isFresh_of_mem_impliedEdges⟩
  obtain ⟨-, kind, drawn⟩ := mem_kept_authoredLinks_iff.mp member
  exact ⟨by rw [kind]; simp, drawn⟩

theorem isFresh_of_mem_linkedEdges : ∀ edge ∈ linkedEdges prune bullets, edge.IsFresh := by
  cases prune with
  | false => exact fun edge member => isFresh_of_mem_fullEdges edge (List.mem_append_left _ member)
  | true =>
    refine isFresh_of_mem_kept fun edge member => ?_
    obtain ⟨origin, known, rerouted⟩ := List.mem_filterMap.mp member
    have inside := (holds_fullEdges bullets).edges_perm.mem_iff.mp known
    rw [(reroute?_eq_some_iff.mp rerouted).2.2.2.2.1]
    exact (isFresh_of_mem_fullEdges origin inside).1

theorem ne_of_mem_linkedEdges :
    ∀ edge ∈ linkedEdges prune bullets, edge.source ≠ edge.destination := by
  intro edge member
  cases prune with
  | false =>
    obtain ⟨⟨bullet, -, authors⟩, -⟩ := (mem_kept_authoredLinks_iff.mp member).1
    exact authors.1
  | true =>
    obtain ⟨moved, inside, rfl⟩ := LinkGraph.exists_of_mem_kept member
    obtain ⟨_, -, rerouted⟩ := List.mem_filterMap.mp inside
    exact (reroute?_eq_some_iff.mp rerouted).2.2.2.1

/-- The links that an outline is drawn with are clean if and only if no implied edge is a loop and no
two ids are joined both ways by edges of two kinds. -/
theorem isClean_normalize_drawn_iff (prune : Bool) (bullets : List Line) :
    ((Graph.ofBullets bullets).drawn prune).links.normalize.IsClean ↔
      (∀ edge ∈ impliedEdges ((Graph.ofBullets bullets).drawn prune).forest,
          edge.source ≠ edge.destination) ∧
        OneKindBothWays ((Graph.ofBullets bullets).drawn prune).links.edges := by
  have holds := holds_linkedEdges prune bullets
  have fresh : ∀ edge ∈ linkedEdges prune bullets ++
      impliedEdges ((Graph.ofBullets bullets).drawn prune).forest, edge.IsFresh :=
    List.forall_mem_append.mpr ⟨isFresh_of_mem_linkedEdges, isFresh_of_mem_impliedEdges⟩
  rw [LinkGraph.isClean_normalize_iff holds (fun edge member => (fresh edge member).1)
    (fun edge member => (fresh edge member).2), List.forall_mem_append,
    OneKindBothWays.congr fun _ => holds.edges_perm.mem_iff.symm]
  exact and_congr_left' (and_iff_right ne_of_mem_linkedEdges)

/-! ### Distinct ids -/

/-- Where only links can meet their opposite, ids that are joined both ways are so by links. -/
theorem oneKindBothWays_of_isImplied {ids : List String} {paths : List (List Node × Node)}
    (idsDistinct : ids.Nodup) (pathsDistinct : (paths.map fun path => path.2.id).Nodup)
    {edges : List Edge}
    (cases : ∀ edge ∈ edges, edge.kind = .link ∨ IsImplied ids paths edge) :
    OneKindBothWays edges := by
  have isLink : ∀ edge ∈ edges, edge.flip ∈ edges → edge.kind = .link := by
    intro edge inside back
    rcases cases edge inside with isLink | implied
    · exact isLink
    · rcases cases edge.flip back with backLink | opposite
      · exact backLink
      · exact absurd opposite (implied.asymm idsDistinct pathsDistinct)
  intro first firstInside second secondInside firstBack secondBack _ _
  rw [isLink first firstInside firstBack, isLink second secondInside secondBack]

/-- Where no two bullets share an id, the links are clean. -/
theorem isClean_normalize_drawn (valid : ∀ line ∈ bullets, line.isBullet = true)
    (distinct : (bullets.map Line.id).Nodup) (prune : Bool) :
    ((Graph.ofBullets bullets).drawn prune).links.normalize.IsClean := by
  have pathsDistinct := nodup_paths_fullGraph valid distinct
  rw [isClean_normalize_drawn_iff]
  cases prune with
  | false =>
    have idsDistinct := nodup_nodeIds_fullGraph valid distinct
    refine ⟨fun edge member => ?_, ?_⟩
    · exact (isImplied_of_mem_full valid distinct member).ne idsDistinct pathsDistinct
    · refine oneKindBothWays_of_isImplied idsDistinct pathsDistinct fun edge member => ?_
      have inside := (holds_fullEdges bullets).edges_perm.mem_iff.mp member
      exact (mem_fullEdges valid distinct inside).imp_left And.left
  | true =>
    have idsDistinct := nodup_nodeIds_prunedGraph valid distinct
    refine ⟨fun edge member => ?_, ?_⟩
    · exact (isImplied_of_mem_pruned valid distinct member).ne idsDistinct pathsDistinct
    · refine oneKindBothWays_of_isImplied idsDistinct pathsDistinct fun edge member => ?_
      have inside := (holds_prunedEdges bullets).edges_perm.mem_iff.mp member
      exact (mem_prunedEdges valid distinct inside).imp_left And.left

/-! ### Compiled outlines -/

namespace Graph

/-- The links of a compiled outline are clean if and only if its forest implies no loop and no two
ids are joined both ways by edges of two kinds. They are clean where no two bullets share an id. -/
theorem isClean_links_compile_iff {lines : List Line} {built : Graph}
    (succeeds : build lines = .ok built) (prune : Bool) :
    ∃ graph, compile prune lines = .ok graph ∧
      (graph.links.IsClean ↔
        (∀ edge ∈ impliedEdges graph.forest, edge.source ≠ edge.destination) ∧
          OneKindBothWays (built.drawn prune).links.edges) ∧
      (((bulletsOf lines).map Line.id).Nodup → graph.links.IsClean) := by
  obtain rfl := eq_ofBullets_of_build succeeds
  refine ⟨_, compile_eq_ok (firstBadIndent?_of_build succeeds) prune, ?_, fun distinct => ?_⟩
  · exact isClean_normalize_drawn_iff prune (bulletsOf lines)
  · exact isClean_normalize_drawn (fun _ member => isBullet_of_mem_bulletsOf member) distinct prune

/-- Two bullets share an id, and are joined to a third one by its own edge and by theirs. -/
theorem isClean_links_compile_shared :
    let lines : List Line :=
      [{ depth := 0, explicitId := some "a", visibility := .fold },
        { depth := 1, explicitId := some "c", idsOut := ["b"] },
        { depth := 0, explicitId := some "b" },
        { depth := 0, explicitId := some "a" }]
    build lines = .ok (ofBullets lines) ∧ ¬ ((bulletsOf lines).map Line.id).Nodup ∧
      ∃ graph, compile true lines = .ok graph ∧ graph.links.IsClean := by
  intro lines
  have succeeds : build lines = .ok (ofBullets lines) := by decide +kernel
  obtain ⟨graph, compiled, clean, -⟩ := isClean_links_compile_iff succeeds true
  have apart : (compile true lines).map (fun final : Graph => decide
      (∀ edge ∈ impliedEdges final.forest, edge.source ≠ edge.destination)) = .ok true := by
    decide +kernel
  rw [compiled] at apart
  have oneKind : OneKindBothWays ((ofBullets lines).drawn true).links.edges := by decide +kernel
  exact ⟨succeeds, by decide +kernel, graph, compiled,
    clean.mpr ⟨of_decide_eq_true (Except.ok.inj apart), oneKind⟩⟩

/-- A parent and its only child with one id are joined by a loop. -/
theorem not_isClean_links_compile_loop :
    let lines := (Line.readAll 2 ["- A // x", "  - B // x"] (IdSupply.numbered [])).1
    build lines = .ok (ofBullets lines) ∧ ∀ prune, ∃ graph, compile prune lines = .ok graph ∧
      ¬ graph.links.IsClean ∧ ∃ edge ∈ graph.links.edges, edge.source = edge.destination := by
  intro lines
  have legal : firstBadIndent? 0 (bulletsOf lines) = none := by decide +kernel
  refine ⟨by decide +kernel, fun prune => ⟨_, compile_eq_ok legal prune, ?_⟩⟩
  cases prune <;> decide +kernel

end Graph

end OutlineDiagram
