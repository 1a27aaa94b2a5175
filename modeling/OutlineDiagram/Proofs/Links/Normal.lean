/-
This file proves what the normal form of a link graph is. Dropping repeats commutes
with every look at a list of edges, so a graph without repeats holds the unique
edges. The merge then visits each edge once, and what it has done so far is told by
the edges that led a pair: every listing of a leader and of its opposite became one
half of that pair, and all else is as it was.
-/

import Mathlib.Data.List.Induction
import OutlineDiagram.Links.Normal
import OutlineDiagram.Proofs.Links.Edges

namespace OutlineDiagram

/-! ### Unique members -/

section Unique

variable {α : Type} {same : α → α → Bool}

theorem uniqueBy_filter {test : α → Bool}
    (respects : ∀ first second, same first second = true → test first = test second)
    (members : List α) :
    uniqueBy same (members.filter test) = (uniqueBy same members).filter test := by
  induction members with
  | nil => rfl
  | cons first rest inductionHypothesis =>
    rw [uniqueBy]
    by_cases passes : test first = true
    · rw [List.filter_cons_of_pos passes, List.filter_cons_of_pos passes, uniqueBy,
        inductionHypothesis, List.filter_filter, List.filter_filter]
      exact congrArg _ (List.filter_congr fun member _ => Bool.and_comm _ _)
    · rw [List.filter_cons_of_neg passes, List.filter_cons_of_neg passes, inductionHypothesis,
        List.filter_filter]
      refine List.filter_congr fun member _ => ?_
      -- What is the same as a member that fails the test fails it as well.
      cases isSame : same member first with
      | false => rw [Bool.not_false, Bool.and_true]
      | true =>
        rw [respects member first isSame, Bool.eq_false_iff.mpr passes]
        rfl

theorem uniqueBy_map {β : Type} {other : β → β → Bool} {change : α → β}
    (respects : ∀ first second, other (change first) (change second) = same first second)
    (members : List α) :
    uniqueBy other (members.map change) = (uniqueBy same members).map change := by
  induction members with
  | nil => rfl
  | cons first rest inductionHypothesis =>
    rw [uniqueBy, List.map_cons, uniqueBy, inductionHypothesis, List.map_cons, List.filter_map]
    refine congrArg _ (congrArg _ (List.filter_congr fun member _ => ?_))
    rw [Function.comp_apply, respects]

/-- Where only equal members are the same, no member gets lost. -/
theorem mem_uniqueBy_iff {members : List α}
    (exact : ∀ first ∈ members, ∀ second ∈ members, same first second = true → first = second)
    {member : α} : member ∈ uniqueBy same members ↔ member ∈ members := by
  refine ⟨mem_of_mem_uniqueBy, fun inside => ?_⟩
  induction members with
  | nil => exact inside
  | cons first rest inductionHypothesis =>
    rw [uniqueBy]
    by_cases isFirst : member = first
    · rw [isFirst]
      exact List.mem_cons_self
    · have later : member ∈ rest := (List.mem_cons.mp inside).resolve_left isFirst
      have found := inductionHypothesis (fun one oneInside other otherInside =>
        exact one (List.mem_cons_of_mem _ oneInside) other (List.mem_cons_of_mem _ otherInside))
        later
      refine List.mem_cons_of_mem _ (List.mem_filter.mpr ⟨found, ?_⟩)
      rw [Bool.not_eq_true', Bool.eq_false_iff]
      exact fun isSame => isFirst (exact member inside first List.mem_cons_self isSame)

theorem nodup_uniqueBy (reflexive : ∀ member, same member member = true) (members : List α) :
    (uniqueBy same members).Nodup := by
  refine (pairwise_uniqueBy members).imp fun {first second} apart equal => ?_
  rw [equal, reflexive] at apart
  exact Bool.noConfusion apart

end Unique

/-! ### Edges that are the same -/

namespace Edge

theorem sameAs_iff {first second : Edge} : first.sameAs second = true ↔
    first.source = second.source ∧ first.destination = second.destination ∧
      first.kind = second.kind := by
  rw [sameAs, Bool.and_eq_true, Bool.and_eq_true, beq_iff_eq, beq_iff_eq, beq_iff_eq, and_assoc]

theorem sameAs_refl (edge : Edge) : edge.sameAs edge = true := sameAs_iff.mpr ⟨rfl, rfl, rfl⟩

theorem sameAs_flip (first second : Edge) :
    first.flip.sameAs second.flip = first.sameAs second := by
  rw [sameAs, sameAs, Bool.and_comm (first.source == second.source)]
  rfl

theorem eq_of_sameAs {first second : Edge} (same : first.sameAs second = true)
    (firstDrawn : first.mustRender = true) (secondDrawn : second.mustRender = true) :
    first = second := by
  obtain ⟨source, destination, kind⟩ := sameAs_iff.mp same
  cases first
  cases second
  simp_all

/-- Where all edges are drawn, dropping repeats loses none. -/
theorem mem_uniqueBy_sameAs_iff {added : List Edge}
    (drawn : ∀ edge ∈ added, edge.mustRender = true) {edge : Edge} :
    edge ∈ uniqueBy sameAs added ↔ edge ∈ added :=
  mem_uniqueBy_iff fun first firstInside second secondInside same =>
    eq_of_sameAs same (drawn first firstInside) (drawn second secondInside)

@[simp] theorem flip_flip (edge : Edge) : edge.flip.flip = edge := rfl

theorem flip_injective : Function.Injective flip :=
  Function.LeftInverse.injective flip_flip

end Edge

namespace LinkGraph

variable {links : LinkGraph} {added : List Edge} {id : String}

/-! ### Changes at every id -/

/-- The graph with the edges at every id changed. -/
def mapLinks (change : NodeLinks → NodeLinks) (links : LinkGraph) : LinkGraph :=
  ⟨links.entries.map fun entry => (entry.1, change entry.2)⟩

theorem nodeIds_mapLinks (change : NodeLinks → NodeLinks) (links : LinkGraph) :
    (links.mapLinks change).nodeIds = links.nodeIds := by
  rw [nodeIds, nodeIds, mapLinks, List.map_map]
  rfl

theorem linksOf_mapLinks {change : NodeLinks → NodeLinks} (empty : change {} = {})
    (links : LinkGraph) (id : String) :
    (links.mapLinks change).linksOf id = change (links.linksOf id) := by
  have sameTest : ((fun entry : String × NodeLinks => entry.1 == id) ∘
      fun entry : String × NodeLinks => (entry.1, change entry.2)) =
        fun entry => entry.1 == id := rfl
  rw [linksOf, linksOf, mapLinks, List.find?_map, sameTest]
  cases links.entries.find? fun entry => entry.1 == id with
  | none => exact empty.symm
  | some entry => rfl

/-- Dropping repeats from every list drops them from the edges that the graph holds. -/
theorem Holds.withoutRepeats (holds : links.Holds added)
    (drawn : ∀ edge ∈ added, edge.mustRender = true) :
    links.withoutRepeats.Holds (uniqueBy Edge.sameAs added) := by
  have mapped : links.withoutRepeats = links.mapLinks NodeLinks.withoutRepeats := rfl
  have listed : ∀ id, links.withoutRepeats.linksOf id = (links.linksOf id).withoutRepeats :=
    linksOf_mapLinks rfl links
  refine ⟨?_, fun id => ?_, fun id => ?_, fun id => ?_⟩
  · rw [mapped, nodeIds_mapLinks]
    exact holds.nodup
  · rw [mapped, nodeIds_mapLinks, holds.touched]
    simp only [Edge.mem_uniqueBy_sameAs_iff drawn]
  · have respects : ∀ first second : Edge, first.sameAs second = true →
        (first.source == id) = (second.source == id) := by
      intro first second same
      rw [(Edge.sameAs_iff.mp same).1]
    rw [LinkGraph.outputs, listed, NodeLinks.withoutRepeats, ← uniqueBy_filter respects,
      ← holds.outputs]
    rfl
  · have respects : ∀ first second : Edge, first.sameAs second = true →
        (first.destination == id) = (second.destination == id) := by
      intro first second same
      rw [(Edge.sameAs_iff.mp same).2.1]
    rw [LinkGraph.inputs, listed, NodeLinks.withoutRepeats, ← uniqueBy_filter respects,
      ← uniqueBy_map Edge.sameAs_flip, ← holds.inputs]
    rfl

/-! ### Settled graphs -/

end LinkGraph

/-- An edge after some edges led a pair: a leader is drawn as the pair, and its opposite is the half
that is not drawn. -/
def Edge.settled (leaders : List Edge) (edge : Edge) : Edge :=
  if edge ∈ leaders then LinkGraph.asBilink edge
  else if edge.flip ∈ leaders then { LinkGraph.asBilink edge with mustRender := false }
  else edge

/-- An edge as the id that it reaches lists it, after some edges led a pair. -/
def Edge.settledFar (leaders : List Edge) (edge : Edge) : Edge :=
  if edge ∈ leaders ∨ edge.flip ∈ leaders then LinkGraph.asBilink edge else edge

namespace Edge

variable {leaders : List Edge} {edge other : Edge}

theorem settled_of_not_mem (own : edge ∉ leaders) (opposite : edge.flip ∉ leaders) :
    edge.settled leaders = edge := by
  rw [settled, if_neg own, if_neg opposite]

theorem settledFar_of_not_mem (own : edge ∉ leaders) (opposite : edge.flip ∉ leaders) :
    edge.settledFar leaders = edge := by
  rw [settledFar, if_neg (not_or.mpr ⟨own, opposite⟩)]

/-- A further leader changes itself and its opposite only. -/
theorem settled_append_of_ne (own : edge ≠ other) (opposite : edge ≠ other.flip) :
    edge.settled (leaders ++ [other]) = edge.settled leaders := by
  have notFlip : edge.flip ≠ other := fun same => opposite (by rw [← same, flip_flip])
  simp [settled, own, notFlip]

theorem settledFar_append_of_ne (own : edge ≠ other) (opposite : edge ≠ other.flip) :
    edge.settledFar (leaders ++ [other]) = edge.settledFar leaders := by
  have notFlip : edge.flip ≠ other := fun same => opposite (by rw [← same, flip_flip])
  simp [settledFar, own, notFlip]

/-- An edge that was settled is a half of a pair, unless it is as it was. -/
theorem settled_eq_or (leaders : List Edge) (edge : Edge) :
    edge.settled leaders = edge ∨ (edge.settled leaders).kind = .bilink := by
  rw [settled]
  split
  · exact Or.inr rfl
  · split
    · exact Or.inr rfl
    · exact Or.inl rfl

theorem settledFar_eq_or (leaders : List Edge) (edge : Edge) :
    edge.settledFar leaders = edge ∨ (edge.settledFar leaders).kind = .bilink := by
  rw [settledFar]
  split
  · exact Or.inr rfl
  · exact Or.inl rfl

end Edge

namespace LinkGraph

variable {links : LinkGraph} {added leaders : List Edge} {id : String}

/-- The edges at an id after some edges led a pair. -/
def settleNode (leaders : List Edge) (own : NodeLinks) : NodeLinks where
  outputs := own.outputs.map (Edge.settled leaders)
  inputs := own.inputs.map (Edge.settledFar leaders)

/-- The graph after some edges led a pair. -/
def settle (leaders : List Edge) (links : LinkGraph) : LinkGraph :=
  links.mapLinks (settleNode leaders)

theorem outputs_settle (leaders : List Edge) (links : LinkGraph) (id : String) :
    (links.settle leaders).outputs id = (links.outputs id).map (Edge.settled leaders) := by
  rw [outputs, settle, linksOf_mapLinks rfl]
  rfl

theorem inputs_settle (leaders : List Edge) (links : LinkGraph) (id : String) :
    (links.settle leaders).inputs id = (links.inputs id).map (Edge.settledFar leaders) := by
  rw [inputs, settle, linksOf_mapLinks rfl]
  rfl

theorem edges_settle (leaders : List Edge) (links : LinkGraph) :
    (links.settle leaders).edges = links.edges.map (Edge.settled leaders) := by
  rw [edges, edges, settle, mapLinks, List.flatMap_map, List.map_flatMap]
  rfl

/-- Edges as they are drawn anew: each is there once, none is a loop and none is half of a pair. -/
structure Plain (added : List Edge) : Prop where
  /-- No edge is there twice. -/
  nodup : added.Nodup
  /-- No edge leads from an id to itself. -/
  noLoop : ∀ edge ∈ added, edge.source ≠ edge.destination
  /-- No edge is a half of a pair. -/
  notBilink : ∀ edge ∈ added, edge.kind ≠ .bilink
  /-- Every edge is drawn. -/
  drawn : ∀ edge ∈ added, edge.mustRender = true

theorem plain_uniqueBy (noLoop : ∀ edge ∈ added, edge.source ≠ edge.destination)
    (notBilink : ∀ edge ∈ added, edge.kind ≠ .bilink)
    (drawn : ∀ edge ∈ added, edge.mustRender = true) : Plain (uniqueBy Edge.sameAs added) where
  nodup := nodup_uniqueBy Edge.sameAs_refl added
  noLoop edge member := noLoop edge (mem_of_mem_uniqueBy member)
  notBilink edge member := notBilink edge (mem_of_mem_uniqueBy member)
  drawn edge member := drawn edge (mem_of_mem_uniqueBy member)

/-! ### One visit -/

/-- The leaders after a visit to an edge. It leads when its opposite is there and does not lead. -/
def lead (added leaders : List Edge) (edge : Edge) : List Edge :=
  if edge.flip ∈ added ∧ edge.flip ∉ leaders then leaders ++ [edge] else leaders

/-- Changing one of distinct members after all were mapped is mapping that one otherwise. -/
theorem modify_map_of_nodup {α β : Type} {members : List α} (distinct : members.Nodup)
    {position : Nat} {member : α} (found : members[position]? = some member) {first second : α → β}
    {change : β → β} (changed : second member = change (first member))
    (others : ∀ other ∈ members, other ≠ member → second other = first other) :
    (members.map first).modify position change = members.map second := by
  refine List.ext_getElem? fun index => ?_
  rw [List.getElem?_modify, List.getElem?_map, List.getElem?_map]
  cases here : members[index]? with
  | none => rfl
  | some other =>
    show some (if position = index then change (first other) else first other) =
      some (second other)
    by_cases isPosition : position = index
    · have isMember : other = member := by
        rw [← isPosition, found] at here
        exact (Option.some.inj here).symm
      rw [if_pos isPosition, isMember, changed]
    · have different : other ≠ member := by
        rintro rfl
        have bound := (List.getElem?_eq_some_iff.mp found).1
        exact isPosition ((List.getElem?_inj bound distinct).mp (found.trans here.symm))
      rw [if_neg isPosition, others other (List.mem_of_getElem? here) different]

section Visit

variable {edge : Edge}

/-- An edge that reaches an id is the same as a given one only if it was before. -/
theorem eq_of_sameAs_settledFar (plain : Plain added) (inside : edge ∈ added) {far : Edge}
    (farInside : far ∈ added)
    (same : edge.sameAs (far.flip.settledFar leaders) = true) : far.flip = edge := by
  rcases Edge.settledFar_eq_or leaders far.flip with asBefore | isBilink
  · rw [asBefore] at same
    exact (Edge.eq_of_sameAs same (plain.drawn edge inside) (plain.drawn far farInside)).symm
  · exact absurd ((Edge.sameAs_iff.mp same).2.2.trans isBilink) (plain.notBilink edge inside)

theorem findIdx?_inputs_of_not_mem (holds : links.Holds added) (plain : Plain added)
    (inside : edge ∈ added) (missing : edge.flip ∉ added) :
    ((links.settle leaders).inputs edge.source).findIdx? edge.sameAs = none := by
  rw [inputs_settle, holds.inputs, List.map_map, List.findIdx?_eq_none_iff]
  intro input member
  obtain ⟨far, farMember, rfl⟩ := List.mem_map.mp member
  have farInside := (List.mem_filter.mp farMember).1
  refine Bool.eq_false_iff.mpr fun same => missing ?_
  rw [← eq_of_sameAs_settledFar plain inside farInside same]
  exact farInside

/-- The opposite of an edge is found where the source of the edge lists it. -/
theorem exists_findIdx?_inputs (holds : links.Holds added) (plain : Plain added)
    (inside : edge ∈ added) (fresh : edge ∉ leaders) (present : edge.flip ∈ added)
    (behind : edge.flip ∉ leaders) :
    ∃ facing, ((links.settle leaders).inputs edge.source).findIdx? edge.sameAs = some facing ∧
      (links.inputs edge.source)[facing]? = some edge := by
  have listed : edge ∈ links.inputs edge.source := by
    rw [holds.inputs]
    exact List.mem_map.mpr ⟨edge.flip, List.mem_filter.mpr ⟨present, beq_self_eq_true _⟩, rfl⟩
  have isSame : edge.sameAs (edge.settledFar leaders) = true := by
    rw [Edge.settledFar_of_not_mem fresh behind]
    exact edge.sameAs_refl
  have found := List.findIdx?_eq_some_of_exists
    ⟨edge.settledFar leaders, List.mem_map_of_mem listed, isSame⟩
  rw [← inputs_settle] at found
  refine ⟨_, found, ?_⟩
  obtain ⟨bound, passes, -⟩ := List.findIdx?_eq_some_iff_getElem.mp found
  generalize List.findIdx edge.sameAs _ = facing at bound passes ⊢
  have position : facing < (links.inputs edge.source).length := by
    rwa [inputs_settle, List.length_map] at bound
  simp only [inputs_settle, List.getElem_map] at passes
  have member := List.getElem_mem position
  rw [List.getElem?_eq_getElem position]
  generalize (links.inputs edge.source)[facing] = input at passes member ⊢
  rw [holds.inputs] at member
  obtain ⟨far, farMember, rfl⟩ := List.mem_map.mp member
  rw [eq_of_sameAs_settledFar plain inside (List.mem_filter.mp farMember).1 passes]

theorem mem_outputs_iff (holds : links.Holds added) :
    edge ∈ links.outputs id ↔ edge ∈ added ∧ edge.source = id := by
  rw [holds.outputs, List.mem_filter, beq_iff_eq]

theorem mem_inputs_iff (holds : links.Holds added) :
    edge ∈ links.inputs id ↔ edge.flip ∈ added ∧ edge.source = id := by
  rw [holds.inputs, List.mem_map]
  constructor
  · rintro ⟨far, member, rfl⟩
    exact ⟨(List.mem_filter.mp member).1, eq_of_beq (List.mem_filter.mp member).2⟩
  · rintro ⟨farInside, same⟩
    exact ⟨edge.flip, List.mem_filter.mpr ⟨farInside, beq_iff_eq.mpr same⟩, rfl⟩

/-- An edge that leads opens the pair where it is listed at its source. -/
theorem settleNode_append_source (holds : links.Holds added) (plain : Plain added)
    (inside : edge ∈ added) (fresh : edge ∉ leaders) (behind : edge.flip ∉ leaders)
    {position facing : Nat} (leaves : (links.outputs edge.source)[position]? = some edge)
    (reaches : (links.inputs edge.source)[facing]? = some edge) :
    NodeLinks.mk (((links.outputs edge.source).map (Edge.settled leaders)).modify position asBilink)
        (((links.inputs edge.source).map (Edge.settledFar leaders)).modify facing asBilink) =
      settleNode (leaders ++ [edge]) (links.linksOf edge.source) := by
  have isLeader : edge ∈ leaders ++ [edge] := List.mem_append_right _ List.mem_cons_self
  have notFlip : ∀ other : Edge, other.source = edge.source → other ≠ edge.flip := by
    rintro other same rfl
    exact plain.noLoop edge inside same.symm
  refine congrArg₂ NodeLinks.mk (modify_map_of_nodup ?_ leaves ?_ ?_)
    (modify_map_of_nodup ?_ reaches ?_ ?_)
  · rw [holds.outputs]
    exact plain.nodup.filter _
  · rw [Edge.settled, if_pos isLeader, Edge.settled_of_not_mem fresh behind]
  · intro other member different
    exact Edge.settled_append_of_ne different (notFlip other ((mem_outputs_iff holds).mp member).2)
  · rw [holds.inputs]
    exact (plain.nodup.filter _).map Edge.flip_injective
  · rw [Edge.settledFar, if_pos (Or.inl isLeader), Edge.settledFar_of_not_mem fresh behind]
  · intro other member different
    exact Edge.settledFar_append_of_ne different
      (notFlip other ((mem_inputs_iff holds).mp member).2)

/-- Only the opposite of an edge leads back with the kind of the edge. -/
theorem eq_flip_of_leadsBack (plain : Plain added) (inside : edge ∈ added) {other now : Edge}
    (leaves : other.source = edge.destination) (drawn : other.mustRender = true)
    (asBefore : now = other ∨ now.kind = .bilink)
    (leadsBack : (now.destination == edge.source && now.kind == edge.kind) = true) :
    other = edge.flip := by
  rw [Bool.and_eq_true, beq_iff_eq, beq_iff_eq] at leadsBack
  rcases asBefore with rfl | isBilink
  · exact Edge.eq_of_sameAs (Edge.sameAs_iff.mpr ⟨leaves, leadsBack⟩) drawn
      (plain.drawn edge inside)
  · exact absurd (leadsBack.2.symm.trans isBilink) (plain.notBilink edge inside)

/-- An edge that leads closes the pair where it is listed at its destination. -/
theorem settleNode_append_destination (holds : links.Holds added) (plain : Plain added)
    (inside : edge ∈ added) (fresh : edge ∉ leaders) (behind : edge.flip ∉ leaders) :
    closePair edge.source edge.kind (settleNode leaders (links.linksOf edge.destination)) =
      settleNode (leaders ++ [edge]) (links.linksOf edge.destination) := by
  have isLeader : edge ∈ leaders ++ [edge] := List.mem_append_right _ List.mem_cons_self
  have notOwn : ∀ other : Edge, other.source = edge.destination → other ≠ edge := by
    rintro other same rfl
    exact plain.noLoop other inside same
  have leadsBack :
      (edge.flip.destination == edge.source && edge.flip.kind == edge.kind) = true := by
    rw [Bool.and_eq_true]
    exact ⟨beq_self_eq_true _, beq_self_eq_true _⟩
  rw [closePair, settleNode, settleNode, List.map_map, List.map_map]
  refine congrArg₂ NodeLinks.mk (List.map_congr_left fun other member => ?_)
    (List.map_congr_left fun other member => ?_)
  · obtain ⟨otherInside, leaves⟩ := (mem_outputs_iff holds).mp member
    rw [Function.comp_apply]
    by_cases opposite : other = edge.flip
    · have notLeader : edge.flip ∉ leaders ++ [edge] := by
        rw [List.mem_append, List.mem_singleton]
        exact not_or.mpr ⟨behind, notOwn _ rfl⟩
      rw [opposite, Edge.settled_of_not_mem behind fresh, if_pos leadsBack, Edge.settled,
        if_neg notLeader, Edge.flip_flip, if_pos isLeader]
      rfl
    · rw [Edge.settled_append_of_ne (notOwn other leaves) opposite, if_neg]
      exact fun back => opposite (eq_flip_of_leadsBack plain inside leaves
        (plain.drawn other otherInside) (Edge.settled_eq_or leaders other) back)
  · obtain ⟨farInside, leaves⟩ := (mem_inputs_iff holds).mp member
    rw [Function.comp_apply]
    by_cases opposite : other = edge.flip
    · rw [opposite, Edge.settledFar_of_not_mem behind fresh, if_pos leadsBack, Edge.settledFar,
        Edge.flip_flip, if_pos (Or.inr isLeader)]
    · rw [Edge.settledFar_append_of_ne (notOwn other leaves) opposite, if_neg]
      exact fun back => opposite (eq_flip_of_leadsBack plain inside leaves
        (plain.drawn other.flip farInside) (Edge.settledFar_eq_or leaders other) back)

/-- An edge that leads changes nothing at other ids. -/
theorem settleNode_append_of_ne (holds : links.Holds added) (notSource : id ≠ edge.source)
    (notDestination : id ≠ edge.destination) :
    settleNode leaders (links.linksOf id) = settleNode (leaders ++ [edge]) (links.linksOf id) := by
  have apart : ∀ other : Edge, other.source = id → other ≠ edge ∧ other ≠ edge.flip := by
    rintro other rfl
    exact ⟨fun same => notSource (by rw [same]), fun same => notDestination (by rw [same]; rfl)⟩
  rw [settleNode, settleNode]
  refine congrArg₂ NodeLinks.mk (List.map_congr_left fun other member => ?_)
    (List.map_congr_left fun other member => ?_)
  · obtain ⟨notOwn, notFlip⟩ := apart other ((mem_outputs_iff holds).mp member).2
    exact (Edge.settled_append_of_ne notOwn notFlip).symm
  · obtain ⟨notOwn, notFlip⟩ := apart other ((mem_inputs_iff holds).mp member).2
    exact (Edge.settledFar_append_of_ne notOwn notFlip).symm

/-- Opening and closing a pair makes its edge a leader. -/
theorem settle_append (holds : links.Holds added) (plain : Plain added) (inside : edge ∈ added)
    (fresh : edge ∉ leaders) (behind : edge.flip ∉ leaders) {position facing : Nat}
    (leaves : (links.outputs edge.source)[position]? = some edge)
    (reaches : (links.inputs edge.source)[facing]? = some edge) :
    ((links.settle leaders).modify edge.source fun own =>
      { outputs := own.outputs.modify position asBilink
        inputs := own.inputs.modify facing asBilink }).modify edge.destination
          (closePair edge.source edge.kind) = links.settle (leaders ++ [edge]) := by
  rw [modify, modify, settle, settle, mapLinks, mapLinks, List.map_map, List.map_map]
  refine congrArg LinkGraph.mk (List.map_congr_left fun entry member => ?_)
  obtain ⟨id, own⟩ := entry
  have listed : links.linksOf id = own := linksOf_of_mem holds.nodup member
  subst listed
  rw [Function.comp_apply, Function.comp_apply]
  by_cases isSource : id = edge.source
  · subst isSource
    rw [if_pos (beq_self_eq_true edge.source),
      if_neg (fun same => plain.noLoop edge inside (eq_of_beq same))]
    exact congrArg _ (settleNode_append_source holds plain inside fresh behind leaves reaches)
  · rw [if_neg (fun same => isSource (eq_of_beq same))]
    by_cases isDestination : id = edge.destination
    · subst isDestination
      rw [if_pos (beq_self_eq_true edge.destination)]
      exact congrArg _ (settleNode_append_destination holds plain inside fresh behind)
    · rw [if_neg (fun same => isDestination (eq_of_beq same))]
      exact congrArg _ (settleNode_append_of_ne holds isSource isDestination)

theorem mergeAt_of_not_drawn {state : LinkGraph × Nat} {position : Nat}
    (here : (state.1.outputs id)[position]? = some edge) (hidden : edge.mustRender = false) :
    mergeAt id state position = state := by
  simp [mergeAt, here, hidden]

theorem mergeAt_of_alone {state : LinkGraph × Nat} {position : Nat}
    (here : (state.1.outputs id)[position]? = some edge)
    (alone : (state.1.inputs id).findIdx? edge.sameAs = none) :
    mergeAt id state position = state := by
  simp [mergeAt, here, alone]

theorem fst_mergeAt_of_pair {state : LinkGraph × Nat} {position facing : Nat}
    (here : (state.1.outputs id)[position]? = some edge) (drawn : edge.mustRender = true)
    (place : (state.1.inputs id).findIdx? edge.sameAs = some facing) :
    (mergeAt id state position).1 =
      (state.1.modify id fun own =>
        { outputs := own.outputs.modify position asBilink
          inputs := own.inputs.modify facing asBilink }).modify edge.destination
            (closePair id edge.kind) := by
  simp [mergeAt, here, drawn, place]

/-- A visit to an edge makes it lead if it has to, and changes nothing else. -/
theorem mergeAt_settle (holds : links.Holds added) (plain : Plain added) {position count : Nat}
    (found : (links.outputs id)[position]? = some edge) (fresh : edge ∉ leaders) :
    (mergeAt id (links.settle leaders, count) position).1 =
      links.settle (lead added leaders edge) := by
  obtain ⟨inside, rfl⟩ := (mem_outputs_iff holds).mp (List.mem_of_getElem? found)
  have here : ((links.settle leaders).outputs edge.source)[position]? =
      some (edge.settled leaders) := by
    rw [outputs_settle, List.getElem?_map, found]
    rfl
  by_cases behind : edge.flip ∈ leaders
  · have hidden : (edge.settled leaders).mustRender = false := by
      rw [Edge.settled, if_neg fresh, if_pos behind]
    rw [mergeAt_of_not_drawn here hidden, lead, if_neg (fun both => both.2 behind)]
  · rw [Edge.settled_of_not_mem fresh behind] at here
    by_cases present : edge.flip ∈ added
    · obtain ⟨facing, place, reaches⟩ :=
        exists_findIdx?_inputs holds plain inside fresh present behind
      rw [fst_mergeAt_of_pair here (plain.drawn edge inside) place, lead,
        if_pos ⟨present, behind⟩]
      exact settle_append holds plain inside fresh behind found reaches
    · rw [mergeAt_of_alone here (findIdx?_inputs_of_not_mem holds plain inside present), lead,
        if_neg (fun both => present both.1)]

end Visit

/-! ### All visits -/

/-- The leaders after visits to some edges. -/
def leadersOf (added visited : List Edge) : List Edge := visited.foldl (lead added) []

theorem leadersOf_concat (added visited : List Edge) (edge : Edge) :
    leadersOf added (visited ++ [edge]) = lead added (leadersOf added visited) edge := by
  rw [leadersOf, List.foldl_append]
  rfl

theorem mem_lead_iff {edge other : Edge} :
    other ∈ lead added leaders edge ↔
      other ∈ leaders ∨ other = edge ∧ edge.flip ∈ added ∧ edge.flip ∉ leaders := by
  rw [lead]
  by_cases leads : edge.flip ∈ added ∧ edge.flip ∉ leaders
  · rw [if_pos leads, List.mem_append, List.mem_singleton]
    exact or_congr_right (iff_self_and.mpr fun _ => leads)
  · rw [if_neg leads]
    exact ⟨Or.inl, fun found => found.resolve_right fun both => leads both.2⟩

theorem mem_visited_of_mem_leadersOf {visited : List Edge} {edge : Edge}
    (leads : edge ∈ leadersOf added visited) : edge ∈ visited ∧ edge.flip ∈ added := by
  induction visited using List.reverseRecOn with
  | nil => exact absurd leads List.not_mem_nil
  | append_singleton visited last inductionHypothesis =>
    rw [leadersOf_concat, mem_lead_iff] at leads
    rcases leads with before | ⟨rfl, present, -⟩
    · obtain ⟨inside, present⟩ := inductionHypothesis before
      exact ⟨List.mem_append_left _ inside, present⟩
    · exact ⟨List.mem_append_right _ List.mem_cons_self, present⟩

/-- Whoever is visited before its opposite leads. -/
theorem mem_leadersOf_of_first {visited : List Edge} {edge : Edge} (inside : edge ∈ visited)
    (present : edge.flip ∈ added) (first : edge.flip ∉ visited) :
    edge ∈ leadersOf added visited := by
  induction visited using List.reverseRecOn with
  | nil => exact absurd inside List.not_mem_nil
  | append_singleton visited last inductionHypothesis =>
    have notBefore : edge.flip ∉ visited := fun member => first (List.mem_append_left _ member)
    rw [leadersOf_concat, mem_lead_iff]
    rcases List.mem_append.mp inside with before | isLast
    · exact Or.inl (inductionHypothesis before notBefore)
    · rw [List.mem_singleton] at isLast
      subst isLast
      exact Or.inr ⟨rfl, present, fun leads => notBefore (mem_visited_of_mem_leadersOf leads).1⟩

theorem mem_leadersOf_append {visited further : List Edge} {edge : Edge}
    (leads : edge ∈ leadersOf added visited) : edge ∈ leadersOf added (visited ++ further) := by
  induction further using List.reverseRecOn with
  | nil => rwa [List.append_nil]
  | append_singleton further last inductionHypothesis =>
    rw [← List.append_assoc, leadersOf_concat, mem_lead_iff]
    exact Or.inl inductionHypothesis

/-- Whoever is visited after its opposite does not lead. -/
theorem not_mem_leadersOf_of_second {visited further : List Edge} {edge : Edge}
    (present : edge ∈ added) (opposite : edge.flip ∈ visited) (second : edge ∉ visited) :
    edge ∉ leadersOf added (visited ++ further) := by
  have leads : edge.flip ∈ leadersOf added visited :=
    mem_leadersOf_of_first opposite (by rwa [Edge.flip_flip]) (by rwa [Edge.flip_flip])
  induction further using List.reverseRecOn with
  | nil =>
    rw [List.append_nil]
    exact fun found => second (mem_visited_of_mem_leadersOf found).1
  | append_singleton further last inductionHypothesis =>
    rw [← List.append_assoc, leadersOf_concat, mem_lead_iff]
    rintro (before | ⟨rfl, -, behind⟩)
    · exact inductionHypothesis before
    · exact behind (mem_leadersOf_append leads)

/-- Visiting the edges that leave an id one by one makes some of them lead. -/
theorem foldl_mergeAt_settle (holds : links.Holds added) (plain : Plain added)
    {visited : List Edge} (apart : (visited ++ links.outputs id).Nodup) (count : Nat) {number : Nat}
    (bound : number ≤ (links.outputs id).length) :
    ((List.range number).foldl (mergeAt id) (links.settle (leadersOf added visited), count)).1 =
      links.settle (leadersOf added (visited ++ (links.outputs id).take number)) := by
  induction number with
  | zero => rw [List.take_zero, List.append_nil]; rfl
  | succ number inductionHypothesis =>
    have smaller : number < (links.outputs id).length := bound
    have before := inductionHypothesis (Nat.le_of_lt smaller)
    rw [List.range_succ, List.foldl_append]
    generalize (List.range number).foldl (mergeAt id) _ = state at before ⊢
    obtain ⟨now, pairs⟩ := state
    dsimp only at before
    subst before
    have found : (links.outputs id)[number]? = some (links.outputs id)[number] :=
      List.getElem?_eq_getElem smaller
    have taken : (links.outputs id).take (number + 1) =
        (links.outputs id).take number ++ [(links.outputs id)[number]] := by
      rw [List.take_add_one, found]
      rfl
    have fresh : (links.outputs id)[number] ∉
        leadersOf added (visited ++ (links.outputs id).take number) := by
      intro leads
      have order := apart
      rw [← List.take_append_drop (number + 1) (links.outputs id), taken, ← List.append_assoc,
        ← List.append_assoc] at order
      have untilNow := (List.nodup_append.mp order).1
      exact (List.nodup_append.mp untilNow).2.2 _ (mem_visited_of_mem_leadersOf leads).1 _
        List.mem_cons_self rfl
    rw [taken, ← List.append_assoc, leadersOf_concat]
    exact mergeAt_settle holds plain found fresh

theorem mergeFrom_settle (holds : links.Holds added) (plain : Plain added) {visited : List Edge}
    (apart : (visited ++ links.outputs id).Nodup) (count : Nat) :
    (mergeFrom (links.settle (leadersOf added visited), count) id).1 =
      links.settle (leadersOf added (visited ++ links.outputs id)) := by
  have run := foldl_mergeAt_settle holds plain apart count (Nat.le_refl _)
  rw [List.take_length] at run
  rw [mergeFrom, outputs_settle, List.length_map]
  exact run

/-- Visiting the edges id by id makes some of them lead. -/
theorem foldl_mergeFrom_settle (holds : links.Holds added) (plain : Plain added) (ids : List String)
    {visited : List Edge} (apart : (visited ++ ids.flatMap links.outputs).Nodup) (count : Nat) :
    (ids.foldl mergeFrom (links.settle (leadersOf added visited), count)).1 =
      links.settle (leadersOf added (visited ++ ids.flatMap links.outputs)) := by
  induction ids generalizing visited count with
  | nil => rw [List.flatMap_nil, List.append_nil]; rfl
  | cons first rest inductionHypothesis =>
    rw [List.flatMap_cons, ← List.append_assoc] at apart ⊢
    have step := mergeFrom_settle holds plain (List.nodup_append.mp apart).1 count
    rw [List.foldl_cons]
    generalize mergeFrom _ first = state at step ⊢
    obtain ⟨now, pairs⟩ := state
    dsimp only at step
    rw [step]
    exact inductionHypothesis apart pairs

theorem settle_nil (links : LinkGraph) : links.settle [] = links := by
  have asBefore : ∀ own : NodeLinks, settleNode [] own = own := by
    intro own
    have outputs : own.outputs.map (Edge.settled []) = own.outputs :=
      List.map_id'' (fun _ => Edge.settled_of_not_mem List.not_mem_nil List.not_mem_nil) _
    have inputs : own.inputs.map (Edge.settledFar []) = own.inputs :=
      List.map_id'' (fun _ => Edge.settledFar_of_not_mem List.not_mem_nil List.not_mem_nil) _
    rw [settleNode, outputs, inputs]
  rw [settle, mapLinks]
  refine congrArg LinkGraph.mk ((List.map_congr_left fun entry _ => ?_).trans (List.map_id _))
  rw [asBefore]
  rfl

/-- A graph with opposite edges merged is the graph in which the leaders of all edges lead. -/
theorem merged_eq (holds : links.Holds added) (plain : Plain added) :
    links.merged.1 = links.settle (leadersOf added links.edges) := by
  have apart : links.edges.Nodup := holds.edges_perm.nodup_iff.mpr plain.nodup
  rw [edges_eq holds.nodup] at apart
  have run := foldl_mergeFrom_settle holds plain links.nodeIds
    (show ([] ++ links.nodeIds.flatMap links.outputs).Nodup from apart) 0
  rw [List.nil_append, ← edges_eq holds.nodup, leadersOf, List.foldl_nil, settle_nil] at run
  exact run

theorem mem_flatMap_outputs_iff (holds : links.Holds added) {ids : List String} {edge : Edge} :
    edge ∈ ids.flatMap links.outputs ↔ edge ∈ added ∧ edge.source ∈ ids := by
  rw [List.mem_flatMap]
  constructor
  · rintro ⟨id, member, leaves⟩
    obtain ⟨inside, rfl⟩ := (mem_outputs_iff holds).mp leaves
    exact ⟨inside, member⟩
  · rintro ⟨inside, member⟩
    exact ⟨_, member, (mem_outputs_iff holds).mpr ⟨inside, rfl⟩⟩

theorem idxOf_lt_idxOf_append_iff {before after : List String} {first second : String}
    (fresh : first ∉ before) (different : second ≠ first) :
    (before ++ first :: after).idxOf first < (before ++ first :: after).idxOf second ↔
      second ∉ before := by
  rw [List.idxOf_append_of_notMem fresh, List.idxOf_cons_self]
  by_cases member : second ∈ before
  · have bound := List.idxOf_lt_length_of_mem member
    rw [List.idxOf_append_of_mem member]
    exact ⟨fun less => absurd less (by omega), fun absent => absurd member absent⟩
  · rw [List.idxOf_append_of_notMem member, List.idxOf_cons_ne _ (Ne.symm different)]
    exact ⟨fun _ => member, fun _ => by omega⟩

/-- Of a pair the edge leads that leaves the id which comes first. -/
theorem mem_leadersOf_edges_iff (holds : links.Holds added) (plain : Plain added) {edge : Edge}
    (inside : edge ∈ added) (present : edge.flip ∈ added) :
    edge ∈ leadersOf added links.edges ↔
      links.nodeIds.idxOf edge.source < links.nodeIds.idxOf edge.destination := by
  have touched := (holds.touched edge.source).mpr ⟨edge, inside, Or.inl rfl⟩
  obtain ⟨before, after, split⟩ := List.append_of_mem touched
  have fresh : edge.source ∉ before := by
    have distinct := holds.nodup
    rw [split] at distinct
    exact fun member =>
      (List.nodup_append.mp distinct).2.2 _ member _ List.mem_cons_self rfl
  have different : edge.destination ≠ edge.source := (plain.noLoop edge inside).symm
  rw [edges_eq holds.nodup, split, idxOf_lt_idxOf_append_iff fresh different]
  constructor
  · intro leads member
    rw [List.flatMap_append] at leads
    refine not_mem_leadersOf_of_second inside ?_ ?_ leads
    · exact (mem_flatMap_outputs_iff holds).mpr ⟨present, member⟩
    · exact fun found => fresh ((mem_flatMap_outputs_iff holds).mp found).2
  · intro absent
    have regroup : before ++ edge.source :: after = (before ++ [edge.source]) ++ after := by
      rw [List.append_assoc]
      rfl
    rw [regroup, List.flatMap_append]
    refine mem_leadersOf_append (mem_leadersOf_of_first ?_ present ?_)
    · exact (mem_flatMap_outputs_iff holds).mpr
        ⟨inside, List.mem_append_right _ List.mem_cons_self⟩
    · intro found
      rcases List.mem_append.mp ((mem_flatMap_outputs_iff holds).mp found).2 with member | same
      · exact absent member
      · exact different (List.mem_singleton.mp same)

/-! ### The normal form -/

/-- An edge in the normal form of a graph that holds given edges and lists given ids. -/
def normalEdge (added : List Edge) (ids : List String) (edge : Edge) : Edge :=
  if edge.flip ∈ added then
    { edge with kind := .bilink, mustRender := ids.idxOf edge.source < ids.idxOf edge.destination }
  else edge

theorem settled_leadersOf (holds : links.Holds added) (plain : Plain added) {edge : Edge}
    (inside : edge ∈ added) :
    edge.settled (leadersOf added links.edges) = normalEdge added links.nodeIds edge := by
  rw [normalEdge]
  by_cases present : edge.flip ∈ added
  · have own := mem_leadersOf_edges_iff holds plain inside present
    have opposite := mem_leadersOf_edges_iff holds plain present inside
    rw [if_pos present, Edge.settled]
    by_cases first : links.nodeIds.idxOf edge.source < links.nodeIds.idxOf edge.destination
    · rw [if_pos (own.mpr first), decide_eq_true first, asBilink, plain.drawn edge inside]
    · have touched := (holds.touched edge.source).mpr ⟨edge, inside, Or.inl rfl⟩
      have second : links.nodeIds.idxOf edge.destination < links.nodeIds.idxOf edge.source := by
        refine Nat.lt_of_le_of_ne (Nat.not_lt.mp first) fun same => plain.noLoop edge inside ?_
        exact ((List.idxOf_inj touched).mp same.symm)
      rw [if_neg (fun leads => first (own.mp leads)), if_pos (opposite.mpr second),
        decide_eq_false first]
      rfl
  · rw [if_neg present, Edge.settled_of_not_mem]
    · exact fun leads => present (mem_visited_of_mem_leadersOf leads).2
    · intro leads
      exact present (holds.edges_perm.mem_iff.mp (mem_visited_of_mem_leadersOf leads).1)

/-- The edges of the normal form are the edges that the graph holds, each once, with opposite ones
merged to pairs of which the one is drawn that leaves the id listed first. -/
theorem edges_normalize_perm (holds : links.Holds added)
    (noLoop : ∀ edge ∈ added, edge.source ≠ edge.destination)
    (notBilink : ∀ edge ∈ added, edge.kind ≠ .bilink)
    (drawn : ∀ edge ∈ added, edge.mustRender = true) :
    links.normalize.edges.Perm
      ((uniqueBy Edge.sameAs added).map (normalEdge added links.nodeIds)) := by
  have plain := plain_uniqueBy noLoop notBilink drawn
  have once := holds.withoutRepeats drawn
  have sameIds : links.withoutRepeats.nodeIds = links.nodeIds :=
    nodeIds_mapLinks NodeLinks.withoutRepeats links
  rw [normalize, merged_eq once plain, edges_settle]
  refine (once.edges_perm.map _).trans (List.Perm.of_eq (List.map_congr_left fun edge member => ?_))
  rw [settled_leadersOf once plain member, normalEdge, normalEdge, sameIds]
  simp only [Edge.mem_uniqueBy_sameAs_iff drawn]

end LinkGraph

end OutlineDiagram
