/-
This file says when the flow edges of a normal form make chains. A flow edge whose
opposite is not there stays as it is, in its place, so an id lists the flow edges
that were added, each once. They make chains exactly when two of them that share one
end share the other, too.
-/

import OutlineDiagram.Proofs.Links.Drawn

namespace OutlineDiagram

/-! ### Flow edges -/

/-- The edge leads from one step of a process to the next. -/
def Edge.isFlow (edge : Edge) : Bool := edge.kind == .flow

/-- Two edges leave the same id exactly if they reach the same id. -/
def Edge.ChainsWith (first second : Edge) : Prop :=
  first.source = second.source ↔ first.destination = second.destination

theorem Edge.ChainsWith.symm {first second : Edge} (chains : first.ChainsWith second) :
    second.ChainsWith first :=
  eq_comm.trans (chains.trans eq_comm)

/-- A list without repeats has at most one member exactly if its members are equal. -/
theorem length_le_one_iff {α : Type} {members : List α} (distinct : members.Nodup) :
    members.length ≤ 1 ↔ ∀ first ∈ members, ∀ second ∈ members, first = second := by
  cases members with
  | nil => simp
  | cons head rest =>
    cases rest with
    | nil => simp
    | cons next rest =>
      refine ⟨fun short => absurd short (by simp), fun equal => ?_⟩
      have same : next = head :=
        equal next (List.mem_cons_of_mem _ List.mem_cons_self) head List.mem_cons_self
      exact absurd (same ▸ List.mem_cons_self) (List.nodup_cons.mp distinct).1

/-- A list of turned members of another one, each once, has at most one member exactly if all members
that it has turned are equal. -/
theorem length_le_one_iff_of_turned {α : Type} {listed : List α} (distinct : listed.Nodup)
    {turn : α → α} (turned : Function.Involutive turn) {Member : α → Prop}
    (listed_iff : ∀ member, turn member ∈ listed ↔ Member member) :
    listed.length ≤ 1 ↔ ∀ first second, Member first → Member second → first = second := by
  rw [length_le_one_iff distinct]
  constructor
  · intro equal first second firstInside secondInside
    exact turned.injective (equal (turn first) ((listed_iff first).mpr firstInside) (turn second)
      ((listed_iff second).mpr secondInside))
  · intro equal first firstListed second secondListed
    rw [← turned first] at firstListed
    rw [← turned second] at secondListed
    exact turned.injective (equal _ _ ((listed_iff _).mp firstListed) ((listed_iff _).mp secondListed))

/-- Two changes that make the same members pass a test, and agree on these, leave the same passing
members. -/
theorem filter_map_congr {α β : Type} {test : β → Bool} {change other : α → β} {members : List α}
    (sameTest : ∀ member ∈ members, test (change member) = test (other member))
    (same : ∀ member ∈ members, test (other member) = true → change member = other member) :
    (members.map change).filter test = (members.map other).filter test := by
  have passing : members.filter (test ∘ change) = members.filter (test ∘ other) :=
    List.filter_congr sameTest
  rw [List.filter_map, List.filter_map, passing]
  refine List.map_congr_left fun member found => ?_
  obtain ⟨inside, passes⟩ := List.mem_filter.mp found
  exact same member inside passes

namespace LinkGraph

/-- Each id lists at most one flow edge that leaves it, and at most one that reaches it. -/
def FlowsInChains (links : LinkGraph) : Prop :=
  ∀ id, ((links.outputs id).filter Edge.isFlow).length ≤ 1 ∧
    ((links.inputs id).filter Edge.isFlow).length ≤ 1

variable {links : LinkGraph} {added : List Edge}

/-! ### Edges without their opposites -/

section Alone

variable {kind : EdgeKind} (single : kind ≠ .bilink)
  (alone : ∀ edge ∈ added, (edge.kind == kind) = true → edge.flip ∉ added) (ids : List String)

include single alone

theorem isOfKind_normalEdge {edge : Edge} (member : edge ∈ added) :
    ((normalEdge added ids edge).kind == kind) = (edge.kind == kind) := by
  by_cases opposite : edge.flip ∈ added
  · have otherKind : (edge.kind == kind) = false :=
      Bool.eq_false_iff.mpr fun isOfKind => alone edge member isOfKind opposite
    rw [normalEdge_of_mem opposite, otherKind]
    exact beq_false_of_ne single.symm
  · rw [normalEdge_of_not_mem opposite]

/-- Where no edge of a kind has its opposite, the edges of that kind stay as they are where they
leave. -/
theorem filter_kind_map_normalEdge {edges : List Edge} (inside : ∀ edge ∈ edges, edge ∈ added) :
    (edges.map (normalEdge added ids)).filter (fun edge => edge.kind == kind) =
      edges.filter fun edge => edge.kind == kind := by
  have unchanged : (edges.map (normalEdge added ids)).filter (fun edge => edge.kind == kind) =
      (edges.map id).filter fun edge => edge.kind == kind :=
    filter_map_congr
      (fun edge member => isOfKind_normalEdge single alone ids (inside edge member))
      fun edge member isOfKind => normalEdge_of_not_mem (alone edge (inside edge member) isOfKind)
  rwa [List.map_id] at unchanged

/-- Where no edge of a kind has its opposite, the edges of that kind stay as they are where they
reach. -/
theorem filter_kind_map_farEdge {edges : List Edge} (inside : ∀ edge ∈ edges, edge ∈ added) :
    (edges.map (farEdge added ids)).filter (fun edge => edge.kind == kind) =
      (edges.map Edge.flip).filter fun edge => edge.kind == kind := by
  refine filter_map_congr
    (fun edge member => isOfKind_normalEdge single alone ids (inside edge member))
    fun edge member isOfKind => ?_
  rw [farEdge, normalEdge_of_not_mem (alone edge (inside edge member) isOfKind)]
  rfl

/-- Where no edge of a kind has its opposite, the normal form has the edges of that kind that were
added, each once. -/
theorem edgesOf_normalize_perm (holds : links.Holds added) (unmerged : Unmerged added) :
    (links.normalize.edgesOf kind).Perm
      ((uniqueBy Edge.sameAs added).filter fun edge => edge.kind == kind) := by
  have perm := edges_normalize_perm holds unmerged.noLoop unmerged.notBilink unmerged.drawn
  refine (perm.filter _).trans (List.Perm.of_eq ?_)
  exact filter_kind_map_normalEdge single alone links.nodeIds fun edge => mem_of_mem_uniqueBy

end Alone

/-! ### Flow edges of the normal form -/

section Normalized

variable (holds : links.Holds added) (unmerged : Unmerged added)
  (alone : ∀ edge ∈ added, edge.isFlow = true → edge.flip ∉ added)

include holds unmerged alone

/-- Where no flow edge has its opposite, an id lists the same flow edges before and after opposite
edges are merged. -/
theorem filter_isFlow_normalize (id : String) :
    (links.normalize.outputs id).filter Edge.isFlow =
        (links.withoutRepeats.outputs id).filter Edge.isFlow ∧
      (links.normalize.inputs id).filter Edge.isFlow =
        (links.withoutRepeats.inputs id).filter Edge.isFlow := by
  have once := holds.withoutRepeats unmerged.drawn
  have inside : ∀ test : Edge → Bool, ∀ edge ∈ (uniqueBy Edge.sameAs added).filter test,
      edge ∈ added := fun test edge member => mem_of_mem_uniqueBy (List.mem_filter.mp member).1
  rw [outputs_normalize holds unmerged, inputs_normalize holds unmerged, once.outputs, once.inputs]
  exact ⟨filter_kind_map_normalEdge (by decide) alone _ (inside _),
    filter_kind_map_farEdge (by decide) alone _ (inside _)⟩

theorem mem_outputs_normalize_isFlow_iff {id : String} {edge : Edge} :
    edge ∈ (links.normalize.outputs id).filter Edge.isFlow ↔
      (edge ∈ added ∧ edge.isFlow = true) ∧ edge.source = id := by
  rw [(filter_isFlow_normalize holds unmerged alone id).1, List.mem_filter,
    mem_outputs_iff (holds.withoutRepeats unmerged.drawn), unmerged.mem_uniqueBy_iff, and_right_comm]

theorem mem_inputs_normalize_isFlow_iff {id : String} {edge : Edge} :
    edge ∈ (links.normalize.inputs id).filter Edge.isFlow ↔
      (edge.flip ∈ added ∧ edge.isFlow = true) ∧ edge.source = id := by
  rw [(filter_isFlow_normalize holds unmerged alone id).2, List.mem_filter,
    mem_inputs_iff (holds.withoutRepeats unmerged.drawn), unmerged.mem_uniqueBy_iff, and_right_comm]

/-- Where no flow edge has its opposite, the flow edges of the normal form are those that were
added. -/
theorem mem_edgesOf_flow_normalize_iff {edge : Edge} :
    edge ∈ links.normalize.edgesOf .flow ↔ edge ∈ added ∧ edge.isFlow = true := by
  rw [(edgesOf_normalize_perm (by decide) alone holds unmerged).mem_iff, List.mem_filter,
    unmerged.mem_uniqueBy_iff]
  rfl

/-- Where no flow edge has its opposite, an id lists at most one flow edge that leaves it exactly if
at most one was added. -/
theorem length_outputs_normalize_le_one_iff (id : String) :
    ((links.normalize.outputs id).filter Edge.isFlow).length ≤ 1 ↔ ∀ first second,
      (first ∈ added ∧ first.isFlow = true) ∧ first.source = id →
        (second ∈ added ∧ second.isFlow = true) ∧ second.source = id → first = second := by
  have distinct : ((links.normalize.outputs id).filter Edge.isFlow).Nodup := by
    rw [(filter_isFlow_normalize holds unmerged alone id).1,
      (holds.withoutRepeats unmerged.drawn).outputs]
    exact (unmerged.plain.nodup.filter _).filter _
  have unturned : Function.Involutive fun edge : Edge => edge := fun _ => rfl
  exact length_le_one_iff_of_turned distinct unturned fun _ =>
    mem_outputs_normalize_isFlow_iff holds unmerged alone

/-- Where no flow edge has its opposite, an id lists at most one flow edge that reaches it exactly if
at most one was added. -/
theorem length_inputs_normalize_le_one_iff (id : String) :
    ((links.normalize.inputs id).filter Edge.isFlow).length ≤ 1 ↔ ∀ first second,
      (first ∈ added ∧ first.isFlow = true) ∧ first.destination = id →
        (second ∈ added ∧ second.isFlow = true) ∧ second.destination = id → first = second := by
  have distinct : ((links.normalize.inputs id).filter Edge.isFlow).Nodup := by
    rw [(filter_isFlow_normalize holds unmerged alone id).2,
      (holds.withoutRepeats unmerged.drawn).inputs]
    exact ((unmerged.plain.nodup.filter _).map Edge.flip_injective).filter _
  exact length_le_one_iff_of_turned distinct Edge.flip_flip fun _ =>
    mem_inputs_normalize_isFlow_iff holds unmerged alone

/-- Where no flow edge has its opposite, the flow edges of the normal form make chains exactly if any
two flow edges that were added do. -/
theorem flowsInChains_normalize_iff :
    links.normalize.FlowsInChains ↔ ∀ first ∈ added, ∀ second ∈ added, first.isFlow = true →
      second.isFlow = true → first.ChainsWith second := by
  constructor
  · intro chains first firstInside second secondInside firstFlow secondFlow
    refine ⟨fun source => congrArg Edge.destination ?_, fun destination => congrArg Edge.source ?_⟩
    · exact (length_outputs_normalize_le_one_iff holds unmerged alone first.source).mp
        (chains first.source).1 first second ⟨⟨firstInside, firstFlow⟩, rfl⟩
        ⟨⟨secondInside, secondFlow⟩, source.symm⟩
    · exact (length_inputs_normalize_le_one_iff holds unmerged alone first.destination).mp
        (chains first.destination).2 first second ⟨⟨firstInside, firstFlow⟩, rfl⟩
        ⟨⟨secondInside, secondFlow⟩, destination.symm⟩
  · intro chains id
    have equal : ∀ first ∈ added, ∀ second ∈ added, first.isFlow = true → second.isFlow = true →
        first.source = second.source → first.destination = second.destination →
          first = second := by
      intro first firstInside second secondInside firstFlow secondFlow source destination
      have kind : first.kind = second.kind := (eq_of_beq firstFlow).trans (eq_of_beq secondFlow).symm
      exact Edge.eq_of_sameAs (Edge.sameAs_iff.mpr ⟨source, destination, kind⟩)
        (unmerged.drawn first firstInside) (unmerged.drawn second secondInside)
    refine ⟨(length_outputs_normalize_le_one_iff holds unmerged alone id).mpr ?_,
      (length_inputs_normalize_le_one_iff holds unmerged alone id).mpr ?_⟩
    · rintro first second ⟨⟨firstInside, firstFlow⟩, firstLeaves⟩
        ⟨⟨secondInside, secondFlow⟩, secondLeaves⟩
      have source := firstLeaves.trans secondLeaves.symm
      exact equal first firstInside second secondInside firstFlow secondFlow source
        ((chains first firstInside second secondInside firstFlow secondFlow).mp source)
    · rintro first second ⟨⟨firstInside, firstFlow⟩, firstReaches⟩
        ⟨⟨secondInside, secondFlow⟩, secondReaches⟩
      have destination := firstReaches.trans secondReaches.symm
      exact equal first firstInside second secondInside firstFlow secondFlow
        ((chains first firstInside second secondInside firstFlow secondFlow).mpr destination)
        destination

end Normalized

end LinkGraph

end OutlineDiagram
