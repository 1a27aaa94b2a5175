/-
This file says when the normal form of a link graph is clean: no list holds a loop,
and none holds an edge twice. Repeats are dropped before opposite edges are merged,
and merging gives the edges between two ids one kind if they had their opposites. So
the normal form is clean if and only if no edge is a loop and no two ids are joined
both ways by edges of two kinds.
-/

import Mathlib.Data.List.Pairwise
import OutlineDiagram.Proofs.Links.Ends
import OutlineDiagram.Proofs.Links.Normal

namespace OutlineDiagram

/-! ### Clean lists -/

/-- No two edges of a list join the same ids with the same kind. -/
def NoRepeats (edges : List Edge) : Prop :=
  edges.Pairwise fun first second => first.sameAs second = false

instance (edges : List Edge) : Decidable (NoRepeats edges) :=
  inferInstanceAs (Decidable (List.Pairwise _ edges))

/-- A list of edges holds no loop and no edge twice. -/
structure CleanEdges (edges : List Edge) : Prop where
  noLoop : ∀ edge ∈ edges, edge.source ≠ edge.destination
  noRepeats : NoRepeats edges

instance (edges : List Edge) : Decidable (CleanEdges edges) :=
  decidable_of_iff ((∀ edge ∈ edges, edge.source ≠ edge.destination) ∧ NoRepeats edges)
    ⟨fun both => ⟨both.1, both.2⟩, fun clean => ⟨clean.noLoop, clean.noRepeats⟩⟩

/-- Every list of a link graph is clean. -/
def LinkGraph.IsClean (links : LinkGraph) : Prop :=
  ∀ entry ∈ links.entries, CleanEdges entry.2.outputs ∧ CleanEdges entry.2.inputs

instance (links : LinkGraph) : Decidable links.IsClean :=
  inferInstanceAs (Decidable (∀ entry ∈ links.entries,
    CleanEdges entry.2.outputs ∧ CleanEdges entry.2.inputs))

/-- The edges between two ids that are there both ways are of one kind. -/
def OneKindBothWays (edges : List Edge) : Prop :=
  ∀ first ∈ edges, ∀ second ∈ edges, first.flip ∈ edges → second.flip ∈ edges →
    first.source = second.source → first.destination = second.destination →
      first.kind = second.kind

instance (edges : List Edge) : Decidable (OneKindBothWays edges) :=
  inferInstanceAs (Decidable (∀ first ∈ edges, ∀ second ∈ edges, first.flip ∈ edges →
    second.flip ∈ edges → first.source = second.source →
      first.destination = second.destination → first.kind = second.kind))

theorem OneKindBothWays.congr {edges others : List Edge}
    (same : ∀ edge, edge ∈ edges ↔ edge ∈ others) :
    OneKindBothWays edges ↔ OneKindBothWays others := by
  unfold OneKindBothWays
  simp only [same]

/-- An edge and its opposite are both there. -/
def Paired (edges : List Edge) (edge : Edge) : Prop := edge ∈ edges ∧ edge.flip ∈ edges

theorem paired_flip {edges : List Edge} {edge : Edge} :
    Paired edges edge.flip ↔ Paired edges edge := by
  rw [Paired, Edge.flip_flip, Paired, and_comm]

/-! ### Redrawn lists -/

/-- A change of edges keeps the ends of each and turns those with an opposite into halves of
pairs. -/
structure PairsUp (edges : List Edge) (change : Edge → Edge) : Prop where
  source : ∀ edge, (change edge).source = edge.source
  destination : ∀ edge, (change edge).destination = edge.destination
  paired : ∀ edge, Paired edges edge → (change edge).kind = .bilink
  alone : ∀ edge, ¬ Paired edges edge → (change edge).kind = edge.kind

/-- Two edges are the same after their redrawing when they had the same ends and their opposites
were there. -/
theorem PairsUp.sameAs_iff {edges : List Edge} {change : Edge → Edge}
    (pairs : PairsUp edges change) {first second : Edge} (different : first ≠ second)
    (firstFresh : first.mustRender = true ∧ first.kind ≠ .bilink)
    (secondFresh : second.mustRender = true ∧ second.kind ≠ .bilink) :
    (change first).sameAs (change second) = true ↔
      (Paired edges first ∧ Paired edges second) ∧
        first.source = second.source ∧ first.destination = second.destination := by
  rw [Edge.sameAs_iff, pairs.source, pairs.source, pairs.destination, pairs.destination]
  have apart : first.source = second.source → first.destination = second.destination →
      first.kind ≠ second.kind := fun source destination kind =>
    different (Edge.eq_of_sameAs (Edge.sameAs_iff.mpr ⟨source, destination, kind⟩) firstFresh.1
      secondFresh.1)
  constructor
  · rintro ⟨source, destination, kind⟩
    refine ⟨?_, source, destination⟩
    by_cases one : Paired edges first
    · by_cases other : Paired edges second
      · exact ⟨one, other⟩
      · rw [pairs.paired first one, pairs.alone second other] at kind
        exact absurd kind.symm secondFresh.2
    · by_cases other : Paired edges second
      · rw [pairs.alone first one, pairs.paired second other] at kind
        exact absurd kind firstFresh.2
      · rw [pairs.alone first one, pairs.alone second other] at kind
        exact absurd kind (apart source destination)
  · rintro ⟨⟨one, other⟩, source, destination⟩
    exact ⟨source, destination, (pairs.paired first one).trans (pairs.paired second other).symm⟩

/-- A list without repeats has none after its redrawing if and only if those of its edges that become
halves of pairs have different ends. -/
theorem PairsUp.noRepeats_iff {edges listed : List Edge} {change : Edge → Edge}
    (pairs : PairsUp edges change) (distinct : listed.Nodup)
    (fresh : ∀ edge ∈ listed, edge.mustRender = true ∧ edge.kind ≠ .bilink) :
    NoRepeats (listed.map change) ↔
      ∀ first ∈ listed, ∀ second ∈ listed, Paired edges first → Paired edges second →
        first.source = second.source → first.destination = second.destination →
          first.kind = second.kind := by
  have repeats : ∀ first ∈ listed, ∀ second ∈ listed, first ≠ second →
      ((change first).sameAs (change second) = true ↔
        (Paired edges first ∧ Paired edges second) ∧
          first.source = second.source ∧ first.destination = second.destination) :=
    fun first firstInside second secondInside different =>
      pairs.sameAs_iff different (fresh first firstInside) (fresh second secondInside)
  have symmetric : Std.Symm fun one other => (change one).sameAs (change other) = false := by
    refine ⟨fun one other => ?_⟩
    simp only [Bool.eq_false_iff, Ne, Edge.sameAs_iff]
    exact fun notSame back => notSame ⟨back.1.symm, back.2.1.symm, back.2.2.symm⟩
  rw [NoRepeats, List.pairwise_map]
  constructor
  · intro apart first firstInside second secondInside firstPaired secondPaired source destination
    by_contra different
    have unequal : first ≠ second := fun same => different (by rw [same])
    have notSame := apart.forall firstInside secondInside unequal
    rw [(repeats first firstInside second secondInside unequal).mpr
      ⟨⟨firstPaired, secondPaired⟩, source, destination⟩] at notSame
    exact Bool.noConfusion notSame
  · intro oneKind
    refine distinct.pairwise_of_forall_ne fun first firstInside second secondInside unequal => ?_
    rw [Bool.eq_false_iff]
    intro same
    obtain ⟨⟨firstPaired, secondPaired⟩, source, destination⟩ :=
      (repeats first firstInside second secondInside unequal).mp same
    have kind := oneKind first firstInside second secondInside firstPaired secondPaired source
      destination
    exact unequal (Edge.eq_of_sameAs (Edge.sameAs_iff.mpr ⟨source, destination, kind⟩)
      (fresh first firstInside).1 (fresh second secondInside).1)

namespace LinkGraph

variable {links : LinkGraph} {added : List Edge}

/-- Settling the leaders of all edges pairs up the edges with an opposite, where they leave and where
they reach. -/
theorem pairsUp_settled (holds : links.Holds added) (plain : Plain added) :
    PairsUp added (Edge.settled (leadersOf added links.edges)) ∧
      PairsUp added (Edge.settledFar (leadersOf added links.edges)) := by
  have paired : ∀ edge, Paired added edge ↔ edge ∈ leadersOf added links.edges ∨
      edge.flip ∈ leadersOf added links.edges := by
    intro edge
    constructor
    · rintro ⟨inside, present⟩
      rw [mem_leadersOf_edges_iff holds plain inside present,
        mem_leadersOf_edges_iff holds plain present inside]
      refine Nat.lt_or_gt_of_ne fun same => plain.noLoop edge inside ?_
      exact (List.idxOf_inj ((holds.touched _).mpr ⟨edge, inside, Or.inl rfl⟩)).mp same
    · have back : ∀ other, other ∈ leadersOf added links.edges → Paired added other := by
        intro other leads
        obtain ⟨visited, present⟩ := mem_visited_of_mem_leadersOf leads
        exact ⟨holds.edges_perm.mem_iff.mp visited, present⟩
      exact fun leads => leads.elim (back edge) fun opposite => paired_flip.mp (back _ opposite)
  refine ⟨⟨fun edge => ?_, fun edge => ?_, fun edge both => ?_, fun edge alone => ?_⟩,
    ⟨fun edge => ?_, fun edge => ?_, fun edge both => ?_, fun edge alone => ?_⟩⟩
  · unfold Edge.settled
    split <;> [rfl; split <;> rfl]
  · unfold Edge.settled
    split <;> [rfl; split <;> rfl]
  · unfold Edge.settled
    split
    · rfl
    · next notLeader =>
      rw [if_pos (((paired edge).mp both).resolve_left notLeader)]
      rfl
  · obtain ⟨own, opposite⟩ := not_or.mp (mt (paired edge).mpr alone)
    rw [Edge.settled_of_not_mem own opposite]
  · unfold Edge.settledFar
    split <;> rfl
  · unfold Edge.settledFar
    split <;> rfl
  · rw [Edge.settledFar, if_pos ((paired edge).mp both), asBilink]
  · obtain ⟨own, opposite⟩ := not_or.mp (mt (paired edge).mpr alone)
    rw [Edge.settledFar_of_not_mem own opposite]

/-- Merging leaves no repeats in any list if and only if no two ids are joined both ways by edges of
two kinds. -/
theorem noRepeats_merged_iff (holds : links.Holds added) (plain : Plain added) :
    (∀ entry ∈ links.merged.1.entries, NoRepeats entry.2.outputs ∧ NoRepeats entry.2.inputs) ↔
      OneKindBothWays added := by
  obtain ⟨near, far⟩ := pairsUp_settled holds plain
  have leaving : ∀ id, (links.outputs id).Nodup ∧
      ∀ edge ∈ links.outputs id, edge.mustRender = true ∧ edge.kind ≠ .bilink := by
    intro id
    refine ⟨?_, fun edge member => ?_⟩
    · rw [holds.outputs]
      exact plain.nodup.filter _
    · have inside := ((mem_outputs_iff holds).mp member).1
      exact ⟨plain.drawn edge inside, plain.notBilink edge inside⟩
  have reaching : ∀ id, (links.inputs id).Nodup ∧
      ∀ edge ∈ links.inputs id, edge.mustRender = true ∧ edge.kind ≠ .bilink := by
    intro id
    refine ⟨?_, fun edge member => ?_⟩
    · rw [holds.inputs]
      exact (plain.nodup.filter _).map Edge.flip_injective
    · have inside := ((mem_inputs_iff holds).mp member).1
      exact ⟨plain.drawn edge.flip inside, plain.notBilink edge.flip inside⟩
  rw [merged_eq holds plain, settle, mapLinks, List.forall_mem_map]
  constructor
  · intro apart first firstInside second secondInside firstBack secondBack source destination
    have touched := (holds.touched first.source).mpr ⟨first, firstInside, Or.inl rfl⟩
    obtain ⟨entry, member, isSource⟩ := List.mem_map.mp touched
    have own := (apart entry member).1
    rw [settleNode, ← linksOf_of_mem holds.nodup member, isSource] at own
    exact (near.noRepeats_iff (leaving _).1 (leaving _).2).mp own
      first ((mem_outputs_iff holds).mpr ⟨firstInside, rfl⟩)
      second ((mem_outputs_iff holds).mpr ⟨secondInside, source.symm⟩)
      ⟨firstInside, firstBack⟩ ⟨secondInside, secondBack⟩ source destination
  · intro oneKind entry member
    have paired : ∀ first second, Paired added first → Paired added second →
        first.source = second.source → first.destination = second.destination →
          first.kind = second.kind := by
      intro first second firstPaired secondPaired
      exact oneKind first firstPaired.1 second secondPaired.1 firstPaired.2 secondPaired.2
    rw [settleNode, ← linksOf_of_mem holds.nodup member]
    exact ⟨(near.noRepeats_iff (leaving entry.1).1 (leaving entry.1).2).mpr
        fun first _ second _ => paired first second,
      (far.noRepeats_iff (reaching entry.1).1 (reaching entry.1).2).mpr
        fun first _ second _ => paired first second⟩

/-! ### The normal form -/

theorem isClean_iff : links.IsClean ↔ links.AllJoined (· ≠ ·) ∧ ∀ entry ∈ links.entries,
    NoRepeats entry.2.outputs ∧ NoRepeats entry.2.inputs := by
  constructor
  · intro clean
    refine ⟨fun entry member => NodeLinks.allJoined_iff.mpr ?_, fun entry member => ?_⟩
    · exact ⟨(clean entry member).1.noLoop, (clean entry member).2.noLoop⟩
    · exact ⟨(clean entry member).1.noRepeats, (clean entry member).2.noRepeats⟩
  · rintro ⟨noLoop, noRepeats⟩ entry member
    obtain ⟨outputs, inputs⟩ := NodeLinks.allJoined_iff.mp (noLoop entry member)
    exact ⟨⟨outputs, (noRepeats entry member).1⟩, ⟨inputs, (noRepeats entry member).2⟩⟩

/-- The normal form of the edges that a graph holds is clean if and only if none of them is a loop
and no two ids are joined both ways by edges of two kinds. -/
theorem isClean_normalize_iff (holds : links.Holds added)
    (notBilink : ∀ edge ∈ added, edge.kind ≠ .bilink)
    (drawn : ∀ edge ∈ added, edge.mustRender = true) :
    links.normalize.IsClean ↔
      (∀ edge ∈ added, edge.source ≠ edge.destination) ∧ OneKindBothWays added := by
  have loops : links.normalize.AllJoined (· ≠ ·) ↔
      ∀ edge ∈ added, edge.source ≠ edge.destination := by
    rw [allJoined_normalize_iff, holds.allJoined_iff]
    exact forall₂_congr fun edge _ => and_iff_left_of_imp Ne.symm
  rw [isClean_iff, loops]
  refine and_congr_right fun noLoop => ?_
  have plain := plain_uniqueBy noLoop notBilink drawn
  exact (noRepeats_merged_iff (holds.withoutRepeats drawn) plain).trans
    (OneKindBothWays.congr fun _ => Edge.mem_uniqueBy_sameAs_iff drawn)

end LinkGraph

end OutlineDiagram
