/-
This file proves that bringing a link graph into normal form moves no edge. Each pass
drops listed edges that repeat others, or draws them otherwise, and what is drawn
otherwise keeps its ends. So the ends of all listed edges have something in common in
the normal form if and only if they had it in common before, also where edges or their
opposites repeat.
-/

import OutlineDiagram.Links.Normal
import OutlineDiagram.Proofs.Links.Edges

namespace OutlineDiagram

variable {joined : String → String → Prop}

/-! ### Listed edges -/

/-- The ends of all edges that an id lists are joined, as the id sees them. -/
def NodeLinks.AllJoined (joined : String → String → Prop) (own : NodeLinks) : Prop :=
  ∀ edge ∈ own.outputs ++ own.inputs, joined edge.source edge.destination

/-- The ends of all listed edges are joined. -/
def LinkGraph.AllJoined (joined : String → String → Prop) (links : LinkGraph) : Prop :=
  ∀ entry ∈ links.entries, entry.2.AllJoined joined

/-- A change of an edge that keeps both of its ends. -/
def KeepsEnds (change : Edge → Edge) : Prop :=
  ∀ edge, (change edge).source = edge.source ∧ (change edge).destination = edge.destination

theorem keepsEnds_asBilink : KeepsEnds LinkGraph.asBilink := fun _ => ⟨rfl, rfl⟩

section Lists

variable {change : Edge → Edge} {edges : List Edge}

theorem KeepsEnds.forall_mem_map_iff (keeps : KeepsEnds change) :
    (∀ edge ∈ edges.map change, joined edge.source edge.destination) ↔
      ∀ edge ∈ edges, joined edge.source edge.destination := by
  rw [List.forall_mem_map]
  refine forall₂_congr fun edge _ => ?_
  rw [(keeps edge).1, (keeps edge).2]

theorem KeepsEnds.forall_mem_modify_iff (keeps : KeepsEnds change) (position : Nat) :
    (∀ edge ∈ edges.modify position change, joined edge.source edge.destination) ↔
      ∀ edge ∈ edges, joined edge.source edge.destination := by
  induction edges generalizing position with
  | nil => rw [List.modify_nil]
  | cons first rest inductionHypothesis =>
    cases position with
    | zero =>
      rw [List.modify_zero_cons, List.forall_mem_cons, List.forall_mem_cons, (keeps first).1,
        (keeps first).2]
    | succ position =>
      rw [List.modify_succ_cons, List.forall_mem_cons, List.forall_mem_cons, inductionHypothesis]

/-- An edge that is dropped as a repeat has the ends of one that stays. -/
theorem forall_mem_uniqueBy_sameAs_iff :
    (∀ edge ∈ uniqueBy Edge.sameAs edges, joined edge.source edge.destination) ↔
      ∀ edge ∈ edges, joined edge.source edge.destination := by
  refine ⟨fun unique => ?_, fun all edge member => all edge (mem_of_mem_uniqueBy member)⟩
  induction edges with
  | nil => exact unique
  | cons first rest inductionHypothesis =>
    rw [uniqueBy, List.forall_mem_cons] at unique
    obtain ⟨firstJoined, others⟩ := unique
    refine List.forall_mem_cons.mpr ⟨firstJoined, inductionHypothesis fun edge member => ?_⟩
    cases repeats : edge.sameAs first with
    | true =>
      simp only [Edge.sameAs, Bool.and_eq_true, beq_iff_eq] at repeats
      rw [repeats.1.1, repeats.1.2]
      exact firstJoined
    | false => exact others edge (List.mem_filter.mpr ⟨member, by rw [repeats]; rfl⟩)

end Lists

namespace NodeLinks

variable {own : NodeLinks}

theorem allJoined_iff : own.AllJoined joined ↔
    (∀ edge ∈ own.outputs, joined edge.source edge.destination) ∧
      ∀ edge ∈ own.inputs, joined edge.source edge.destination :=
  List.forall_mem_append

theorem allJoined_withoutRepeats_iff :
    own.withoutRepeats.AllJoined joined ↔ own.AllJoined joined := by
  rw [allJoined_iff, allJoined_iff]
  exact and_congr forall_mem_uniqueBy_sameAs_iff forall_mem_uniqueBy_sameAs_iff

theorem allJoined_closePair_iff (id : String) (kind : EdgeKind) :
    (LinkGraph.closePair id kind own).AllJoined joined ↔ own.AllJoined joined := by
  rw [allJoined_iff, allJoined_iff]
  refine and_congr (KeepsEnds.forall_mem_map_iff fun edge => ?_)
    (KeepsEnds.forall_mem_map_iff fun edge => ?_)
  · split <;> exact ⟨rfl, rfl⟩
  · split <;> exact ⟨rfl, rfl⟩

/-- Opening a pair redraws one edge of each list. -/
theorem allJoined_openPair_iff (position facing : Nat) :
    (NodeLinks.mk (own.outputs.modify position LinkGraph.asBilink)
      (own.inputs.modify facing LinkGraph.asBilink)).AllJoined joined ↔ own.AllJoined joined := by
  rw [allJoined_iff, allJoined_iff]
  exact and_congr (keepsEnds_asBilink.forall_mem_modify_iff position)
    (keepsEnds_asBilink.forall_mem_modify_iff facing)

end NodeLinks

namespace LinkGraph

/-! ### One step -/

variable {links : LinkGraph}

theorem allJoined_modify_iff (id : String) {change : NodeLinks → NodeLinks}
    (keeps : ∀ own, (change own).AllJoined joined ↔ own.AllJoined joined) :
    (links.modify id change).AllJoined joined ↔ links.AllJoined joined := by
  rw [AllJoined, modify, List.forall_mem_map]
  refine forall₂_congr fun entry _ => ?_
  split
  · exact keeps entry.2
  · exact Iff.rfl

theorem allJoined_withoutRepeats_iff :
    links.withoutRepeats.AllJoined joined ↔ links.AllJoined joined := by
  rw [AllJoined, withoutRepeats, List.forall_mem_map]
  exact forall₂_congr fun entry _ => NodeLinks.allJoined_withoutRepeats_iff

theorem allJoined_mergeAt_iff (state : LinkGraph × Nat) (id : String) (position : Nat) :
    (mergeAt id state position).1.AllJoined joined ↔ state.1.AllJoined joined := by
  rw [mergeAt]
  split
  · exact Iff.rfl
  · next edge _ =>
    split
    · exact Iff.rfl
    · split
      · exact Iff.rfl
      · next facing _ =>
        exact (allJoined_modify_iff edge.destination fun own =>
          own.allJoined_closePair_iff id edge.kind).trans
            (allJoined_modify_iff id fun own => own.allJoined_openPair_iff position facing)

/-! ### All steps -/

theorem allJoined_mergeFrom_iff (state : LinkGraph × Nat) (id : String) :
    (mergeFrom state id).1.AllJoined joined ↔ state.1.AllJoined joined :=
  List.foldlRecOn
    (motive := fun now : LinkGraph × Nat => now.1.AllJoined joined ↔ state.1.AllJoined joined)
    _ _ Iff.rfl fun now same position _ => (allJoined_mergeAt_iff now id position).trans same

theorem allJoined_merged_iff : links.merged.1.AllJoined joined ↔ links.AllJoined joined :=
  List.foldlRecOn
    (motive := fun now : LinkGraph × Nat => now.1.AllJoined joined ↔ links.AllJoined joined)
    _ _ Iff.rfl fun now same id _ => (allJoined_mergeFrom_iff now id).trans same

/-- The ends of all edges have something in common in the normal form if and only if they have it in
common before. -/
theorem allJoined_normalize_iff : links.normalize.AllJoined joined ↔ links.AllJoined joined :=
  allJoined_merged_iff.trans allJoined_withoutRepeats_iff

/-- The ends of what a graph lists are those of the edges that it holds, both ways round. -/
theorem Holds.allJoined_iff {added : List Edge} (holds : links.Holds added) :
    links.AllJoined joined ↔ ∀ edge ∈ added,
      joined edge.source edge.destination ∧ joined edge.destination edge.source := by
  have listed : ∀ entry ∈ links.entries,
      entry.2.outputs = (added.filter fun edge => edge.source == entry.1) ∧
        entry.2.inputs = (added.filter fun edge => edge.destination == entry.1).map Edge.flip := by
    intro entry member
    rw [← linksOf_of_mem holds.nodup member]
    exact ⟨holds.outputs entry.1, holds.inputs entry.1⟩
  constructor
  · intro all edge inside
    obtain ⟨sourceEntry, sourceMember, isSource⟩ :=
      List.mem_map.mp ((holds.touched _).mpr ⟨edge, inside, Or.inl rfl⟩)
    obtain ⟨farEntry, farMember, isDestination⟩ :=
      List.mem_map.mp ((holds.touched _).mpr ⟨edge, inside, Or.inr rfl⟩)
    have leaves : edge ∈ sourceEntry.2.outputs := by
      rw [(listed _ sourceMember).1, isSource]
      exact List.mem_filter.mpr ⟨inside, beq_self_eq_true _⟩
    have reaches : edge.flip ∈ farEntry.2.inputs := by
      rw [(listed _ farMember).2, isDestination]
      exact List.mem_map_of_mem (List.mem_filter.mpr ⟨inside, beq_self_eq_true _⟩)
    exact ⟨all _ sourceMember _ (List.mem_append_left _ leaves),
      all _ farMember _ (List.mem_append_right _ reaches)⟩
  · intro each entry member
    rw [NodeLinks.allJoined_iff, (listed entry member).1, (listed entry member).2]
    refine ⟨fun edge leaves => (each edge (List.mem_filter.mp leaves).1).1, fun edge reaches => ?_⟩
    obtain ⟨far, found, rfl⟩ := List.mem_map.mp reaches
    exact (each far (List.mem_filter.mp found).1).2

end LinkGraph

end OutlineDiagram
