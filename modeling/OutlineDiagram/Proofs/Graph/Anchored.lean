/-
This file proves that no edge of a pruned diagram leads to a bullet that is gone. A
table answers for an id with an entry that was put into it, and each entry names a
surviving node or nothing, whichever of several bullets with one id wrote it. So a
rerouted edge joins surviving nodes or ids that no bullet has, implied edges join
surviving nodes, and bringing the links into normal form moves no end.
-/

import OutlineDiagram.Proofs.Graph.Compiled
import OutlineDiagram.Proofs.Links.Ends

namespace OutlineDiagram

/-! ### Answers of a table -/

namespace RerouteTable

variable {table : RerouteTable} {entry other : String × Option String}

theorem mem_entries_put (member : other ∈ (table.put entry).entries) :
    other ∈ table.entries ∨ other = entry := by
  rw [put] at member
  split at member
  · obtain ⟨known, inside, rfl⟩ := List.mem_map.mp member
    split
    · exact Or.inr rfl
    · exact Or.inl inside
  · exact (List.mem_append.mp member).imp_right List.mem_singleton.mp

theorem mem_keys_put {id : String} (known : id ∈ table.entries.map Prod.fst ∨ id = entry.1) :
    id ∈ (table.put entry).entries.map Prod.fst := by
  rw [put]
  split
  · next found =>
    have keys : (table.entries.map fun known => if known.1 == entry.1 then entry else known).map
        Prod.fst = table.entries.map Prod.fst := by
      rw [List.map_map]
      refine List.map_congr_left fun old _ => ?_
      rw [Function.comp_apply]
      split
      · next same => exact (eq_of_beq same).symm
      · rfl
    rw [keys]
    rcases known with before | rfl
    · exact before
    · obtain ⟨old, inside, same⟩ := List.any_eq_true.mp found
      exact List.mem_map.mpr ⟨old, inside, eq_of_beq same⟩
  · rw [List.map_append, List.mem_append]
    exact known.imp_right fun same => by simp [same]

theorem mem_entries_foldl_put {entries : List (String × Option String)}
    (member : other ∈ (entries.foldl put table).entries) :
    other ∈ table.entries ∨ other ∈ entries := by
  induction entries generalizing table with
  | nil => exact Or.inl member
  | cons first rest inductionHypothesis =>
    rcases inductionHypothesis member with before | later
    · refine (mem_entries_put before).imp_right fun same => ?_
      rw [same]
      exact List.mem_cons_self
    · exact Or.inr (List.mem_cons_of_mem _ later)

theorem mem_keys_foldl_put {entries : List (String × Option String)} {id : String}
    (known : id ∈ table.entries.map Prod.fst ∨ id ∈ entries.map Prod.fst) :
    id ∈ (entries.foldl put table).entries.map Prod.fst := by
  induction entries generalizing table with
  | nil => exact known.resolve_right List.not_mem_nil
  | cons first rest inductionHypothesis =>
    refine inductionHypothesis ?_
    rw [List.map_cons, List.mem_cons, ← or_assoc] at known
    exact known.imp_left mem_keys_put

/-- A table answers with one of its entries, or with the id itself where it has none. -/
theorem cases_of_resolve_ofList {entries : List (String × Option String)} {id : String}
    {target : String} (resolved : (ofList entries).resolve id = some target) :
    (id, some target) ∈ entries ∨ id ∉ entries.map Prod.fst ∧ target = id := by
  rw [resolve] at resolved
  split at resolved
  · next entry found =>
    have passes := List.find?_some found
    have key : entry.1 = id := eq_of_beq passes
    have inside := mem_entries_foldl_put (List.mem_of_find?_eq_some found)
    rw [← key, ← resolved]
    exact Or.inl (inside.resolve_left List.not_mem_nil)
  · next none =>
    refine Or.inr ⟨fun member => ?_, (Option.some.inj resolved).symm⟩
    obtain ⟨entry, inside, key⟩ := List.mem_map.mp (mem_keys_foldl_put (Or.inr member))
    exact List.find?_eq_none.mp none entry inside (beq_iff_eq.mpr key)

end RerouteTable

/-! ### Anchored ids -/

/-- An id is the id of a shown node, or none of the declared ones. -/
def Anchored (shown declared : List String) (id : String) : Prop := id ∈ shown ∨ id ∉ declared

namespace Graph

variable {graph : Graph}

/-- Whatever a graph is rerouted to is the id of a surviving node or of no node at all, also where
nodes share ids. -/
theorem anchored_of_resolve {id target : String}
    (resolved : graph.rerouteTable.resolve id = some target) :
    Anchored graph.prune.nodeIds graph.nodeIds target := by
  rcases RerouteTable.cases_of_resolve_ofList resolved with entry | ⟨absent, rfl⟩
  · rw [targetsFrom_paths] at entry
    obtain ⟨path, member, same⟩ := List.mem_map.mp entry
    obtain ⟨rfl, stands⟩ := Prod.mk.inj same
    obtain ⟨upper, inside, shown, same, -⟩ := exists_shows_of_standsFor? member stands
    exact Or.inl (mem_nodeIds_prune_iff.mpr ⟨upper, inside, shown, same⟩)
  · rw [map_fst_targetsFrom] at absent
    exact Or.inr absent

end Graph

/-! ### Compiled outlines -/

section Compiled

variable {bullets : List Line}

theorem nodeIds_prunedGraph_perm :
    (prunedGraph bullets).nodeIds.Perm (fullGraph bullets).prune.nodeIds := by
  have perm := (Forest.paths_arrange_perm (fullGraph bullets).prunedForest).map
    fun path => path.2.id
  rwa [Forest.map_id_paths, Forest.map_id_paths, ← forest_prunedGraph] at perm

/-- The edges that the pruned graph holds join anchored ids. -/
theorem anchored_of_mem_prunedEdges (valid : ∀ line ∈ bullets, line.isBullet = true) {edge : Edge}
    (member : edge ∈ prunedEdges bullets) :
    Anchored (prunedGraph bullets).nodeIds (bullets.map Line.id) edge.source ∧
      Anchored (prunedGraph bullets).nodeIds (bullets.map Line.id) edge.destination := by
  have resolves : ∀ id target, (fullGraph bullets).rerouteTable.resolve id = some target →
      Anchored (prunedGraph bullets).nodeIds (bullets.map Line.id) target := by
    intro id target resolved
    rcases Graph.anchored_of_resolve resolved with shown | undeclared
    · exact Or.inl (nodeIds_prunedGraph_perm.mem_iff.mpr shown)
    · exact Or.inr fun found => undeclared ((nodeIds_fullGraph_perm valid).mem_iff.mpr found)
  rcases List.mem_append.mp member with moved | implied
  · obtain ⟨before, inside, rfl⟩ := List.mem_map.mp moved
    obtain ⟨origin, -, rerouted⟩ := List.mem_filterMap.mp (List.mem_filter.mp inside).1
    obtain ⟨-, source, destination, -⟩ := reroute?_eq_some_iff.mp rerouted
    exact ⟨resolves _ _ source, resolves _ _ destination⟩
  · obtain ⟨source, destination⟩ := ends_of_mem_impliedEdges implied
    exact ⟨Or.inl source, Or.inl destination⟩

end Compiled

namespace Graph

/-- Every edge of a pruned diagram, listed where it leaves or where it reaches, joins ids of nodes
that are shown or ids that no bullet has. -/
theorem anchored_compile {lines : List Line} {built : Graph}
    (succeeds : build lines = .ok built) :
    ∃ graph, compile true lines = .ok graph ∧
      ∀ entry ∈ graph.links.entries, ∀ edge ∈ entry.2.outputs ++ entry.2.inputs,
        Anchored graph.nodeIds ((bulletsOf lines).map Line.id) edge.source ∧
          Anchored graph.nodeIds ((bulletsOf lines).map Line.id) edge.destination := by
  have valid : ∀ line ∈ bulletsOf lines, line.isBullet = true :=
    fun line member => isBullet_of_mem_bulletsOf member
  refine ⟨_, compile_eq_ok (firstBadIndent?_of_build succeeds) true, ?_⟩
  rw [nodeIds_normalize]
  have held : (prunedGraph (bulletsOf lines)).links.AllJoined fun source destination =>
      Anchored (prunedGraph (bulletsOf lines)).nodeIds ((bulletsOf lines).map Line.id) source ∧
        Anchored (prunedGraph (bulletsOf lines)).nodeIds ((bulletsOf lines).map Line.id)
          destination :=
    (holds_prunedEdges (bulletsOf lines)).allJoined_iff.mpr fun edge member =>
      ⟨anchored_of_mem_prunedEdges valid member, (anchored_of_mem_prunedEdges valid member).symm⟩
  exact LinkGraph.allJoined_normalize_iff.mpr held

/-- No edge is left at a hidden bullet, while a second bullet with the id of a folded one keeps its
edges. -/
theorem anchored_compile_hidden :
    let lines : List Line :=
      [{ depth := 0, explicitId := some "a", visibility := .hide },
        { depth := 0, explicitId := some "b", visibility := .fold },
        { depth := 1, explicitId := some "c", idsOut := ["a", "z"] },
        { depth := 0, explicitId := some "c", idsIn := ["a"] }]
    build lines = .ok (ofBullets lines) ∧ ∃ graph, compile true lines = .ok graph ∧
      ∀ entry ∈ graph.links.entries, ∀ edge ∈ entry.2.outputs ++ entry.2.inputs,
        edge.source ≠ "a" ∧ edge.destination ≠ "a" := by
  intro lines
  have succeeds : build lines = .ok (ofBullets lines) := by decide +kernel
  obtain ⟨graph, compiled, anchored⟩ := anchored_compile succeeds
  have gone : (compile true lines).map (fun graph => decide ("a" ∈ graph.nodeIds)) = .ok false := by
    decide +kernel
  rw [compiled] at gone
  have absent : "a" ∉ graph.nodeIds := of_decide_eq_false (Except.ok.inj gone)
  have declared : "a" ∈ (bulletsOf lines).map Line.id := by decide +kernel
  refine ⟨succeeds, graph, compiled, fun entry member edge listed => ?_⟩
  obtain ⟨source, destination⟩ := anchored entry member edge listed
  refine ⟨fun same => ?_, fun same => ?_⟩
  · rw [same] at source
    exact source.elim absent fun undeclared => undeclared declared
  · rw [same] at destination
    exact destination.elim absent fun undeclared => undeclared declared

end Graph

end OutlineDiagram
