/-
This file says which half of a pair the normal form draws, by the order in which the
edges came. The ids of a graph are listed as its edges first named them, so of two ids
that are joined both ways the one leads that is named first. Graphs that hold the same
edges therefore have the same normal form up to order if and only if they name such
ids in the same order.
-/

import OutlineDiagram.Proofs.Links.Normal

namespace OutlineDiagram

/-! ### Names in order -/

/-- The ids that edges name, in order: the source of each edge before its destination. -/
def namesOf (edges : List Edge) : List String :=
  edges.flatMap fun edge => [edge.source, edge.destination]

/-- Of two ids the first one is named first. -/
def NamesFirst (edges : List Edge) (one other : String) : Prop :=
  (namesOf edges).find? (fun id => id == one || id == other) = some one

instance (edges : List Edge) (one other : String) : Decidable (NamesFirst edges one other) :=
  inferInstanceAs (Decidable (_ = _))

theorem namesOf_append (first second : List Edge) :
    namesOf (first ++ second) = namesOf first ++ namesOf second := List.flatMap_append

theorem mem_namesOf_of_mem {edges : List Edge} {edge : Edge} (member : edge ∈ edges) :
    edge.source ∈ namesOf edges ∧ edge.destination ∈ namesOf edges :=
  ⟨List.mem_flatMap.mpr ⟨edge, member, List.mem_cons_self⟩,
    List.mem_flatMap.mpr ⟨edge, member, List.mem_cons_of_mem _ List.mem_cons_self⟩⟩

theorem idxOf_lt_idxOf_iff_find? {one other : String} (different : one ≠ other)
    (ids : List String) :
    ids.idxOf one < ids.idxOf other ↔
      ids.find? (fun id => id == one || id == other) = some one := by
  induction ids with
  | nil => simp
  | cons first rest inductionHypothesis =>
    by_cases isOne : first = one
    · subst isOne
      rw [List.idxOf_cons_self, List.idxOf_cons_ne _ different, List.find?_cons_of_pos (by simp)]
      simp
    · by_cases isOther : first = other
      · subst isOther
        rw [List.idxOf_cons_self, List.find?_cons_of_pos (by simp)]
        simp [isOne]
      · rw [List.idxOf_cons_ne _ isOne, List.idxOf_cons_ne _ isOther,
          List.find?_cons_of_neg (by simp [isOne, isOther]), ← inductionHypothesis]
        omega

/-- What comes after edges that name one of two ids does not change which is named first. -/
theorem namesFirst_append_iff {edges : List Edge} {one other : String} (further : List Edge)
    (named : one ∈ namesOf edges) :
    NamesFirst (edges ++ further) one other ↔ NamesFirst edges one other := by
  unfold NamesFirst
  rw [namesOf_append, List.find?_append]
  cases found : (namesOf edges).find? fun id => id == one || id == other with
  | none => exact absurd (by simp) (List.find?_eq_none.mp found one named)
  | some first => rfl

namespace LinkGraph

variable {links : LinkGraph}

/-! ### Listed ids -/

theorem find?_nodeIds_touch (links : LinkGraph) (id : String) (test : String → Bool) :
    (links.touch id).nodeIds.find? test = (links.nodeIds ++ [id]).find? test := by
  by_cases present : id ∈ links.nodeIds
  · rw [touch_of_mem links present, List.find?_append]
    cases found : links.nodeIds.find? test with
    | some first => rfl
    | none =>
      have fails := List.find?_eq_none.mp found id present
      rw [List.find?_cons_of_neg fails]
      rfl
  · rw [nodeIds_touch_of_not_mem links present]

theorem find?_nodeIds_addEdge {source destination : String} (kind : EdgeKind)
    (hasSource : source ≠ "") (hasDestination : destination ≠ "") (test : String → Bool) :
    (links.addEdge source destination kind).nodeIds.find? test =
      (links.nodeIds ++ [source, destination]).find? test := by
  rw [addEdge_of_named kind hasSource hasDestination, nodeIds_modify, find?_nodeIds_touch,
    List.find?_append, nodeIds_modify, find?_nodeIds_touch, ← List.find?_append,
    List.append_assoc]
  rfl

/-- The ids of a graph are listed in the order in which edges name them. -/
def ListsInOrder (links : LinkGraph) (added : List Edge) : Prop :=
  ∀ test, links.nodeIds.find? test = (namesOf added).find? test

theorem listsInOrder_empty : ListsInOrder {} [] := fun _ => rfl

/-- Adding an edge lists its ends after all others. -/
theorem ListsInOrder.addEdge {added : List Edge} (lists : links.ListsInOrder added)
    (edge : Edge) :
    (links.addEdge edge.source edge.destination edge.kind).ListsInOrder (added ++ kept [edge]) := by
  intro test
  by_cases empty : edge.source = "" ∨ edge.destination = ""
  · rw [addEdge_of_empty edge.kind empty, kept_singleton_of_empty empty, List.append_nil]
    exact lists test
  · obtain ⟨hasSource, hasDestination⟩ := not_or.mp empty
    rw [kept_singleton_of_named hasSource hasDestination,
      find?_nodeIds_addEdge _ hasSource hasDestination, List.find?_append, lists test,
      ← List.find?_append, namesOf_append]
    rfl

theorem ListsInOrder.addEdges {added : List Edge} (lists : links.ListsInOrder added)
    (edges : List Edge) : (links.addEdges edges).ListsInOrder (added ++ kept edges) := by
  induction edges generalizing links added with
  | nil =>
    rw [kept, List.filter_nil, List.map_nil, List.append_nil]
    exact lists
  | cons edge rest inductionHypothesis =>
    have further := inductionHypothesis (lists.addEdge edge)
    rw [List.append_assoc, ← kept_append] at further
    exact further

theorem listsInOrder_addEdges (edges : List Edge) : (addEdges {} edges).ListsInOrder (kept edges) :=
  listsInOrder_empty.addEdges edges

theorem ListsInOrder.idxOf_lt_iff {added : List Edge} (lists : links.ListsInOrder added)
    {one other : String} (different : one ≠ other) :
    links.nodeIds.idxOf one < links.nodeIds.idxOf other ↔ NamesFirst added one other := by
  rw [idxOf_lt_idxOf_iff_find? different, lists]
  exact Iff.rfl

/-! ### Normal forms of the same edges -/

theorem mem_edges_normalize_iff {added : List Edge} (holds : links.Holds added)
    (noLoop : ∀ edge ∈ added, edge.source ≠ edge.destination)
    (notBilink : ∀ edge ∈ added, edge.kind ≠ .bilink)
    (drawn : ∀ edge ∈ added, edge.mustRender = true) {edge : Edge} :
    edge ∈ links.normalize.edges ↔
      ∃ held ∈ added, normalEdge added links.nodeIds held = edge := by
  rw [(edges_normalize_perm holds noLoop notBilink drawn).mem_iff, List.mem_map]
  simp only [Edge.mem_uniqueBy_sameAs_iff drawn]

theorem ends_kind_normalEdge (added : List Edge) (ids others : List String) (edge : Edge) :
    (normalEdge added ids edge).source = (normalEdge added others edge).source ∧
      (normalEdge added ids edge).destination = (normalEdge added others edge).destination ∧
        (normalEdge added ids edge).kind = (normalEdge added others edge).kind := by
  unfold normalEdge
  split <;> exact ⟨rfl, rfl, rfl⟩

section SameEdges

variable {other : LinkGraph} {added otherAdded : List Edge} (holds : links.Holds added)
  (otherHolds : other.Holds otherAdded) (same : ∀ edge, edge ∈ otherAdded ↔ edge ∈ added)
  (noLoop : ∀ edge ∈ added, edge.source ≠ edge.destination)
  (notBilink : ∀ edge ∈ added, edge.kind ≠ .bilink)
  (drawn : ∀ edge ∈ added, edge.mustRender = true)

include otherHolds same noLoop notBilink drawn

/-- Of the order in which a graph holds its edges the normal form keeps that of the ids only. -/
theorem mem_edges_normalize_of_same {edge : Edge} :
    edge ∈ other.normalize.edges ↔
      ∃ held ∈ added, normalEdge added other.nodeIds held = edge := by
  have normal : normalEdge otherAdded other.nodeIds = normalEdge added other.nodeIds := by
    funext held
    exact if_congr (same held.flip) rfl rfl
  rw [mem_edges_normalize_iff otherHolds (fun held member => noLoop held ((same held).mp member))
    (fun held member => notBilink held ((same held).mp member))
    (fun held member => drawn held ((same held).mp member)), normal]
  simp only [same]

include holds

/-- Normal forms of the same edges join the same ids with the same kinds. -/
theorem ends_kind_normalize_iff (source destination : String) (kind : EdgeKind) :
    (∃ edge ∈ other.normalize.edges,
        edge.source = source ∧ edge.destination = destination ∧ edge.kind = kind) ↔
      ∃ edge ∈ links.normalize.edges,
        edge.source = source ∧ edge.destination = destination ∧ edge.kind = kind := by
  simp only [mem_edges_normalize_of_same otherHolds same noLoop notBilink drawn,
    mem_edges_normalize_iff holds noLoop notBilink drawn]
  constructor
  · rintro ⟨_, ⟨held, member, rfl⟩, ends⟩
    obtain ⟨sameSource, sameDestination, sameKind⟩ :=
      ends_kind_normalEdge added other.nodeIds links.nodeIds held
    rw [sameSource, sameDestination, sameKind] at ends
    exact ⟨_, ⟨held, member, rfl⟩, ends⟩
  · rintro ⟨_, ⟨held, member, rfl⟩, ends⟩
    obtain ⟨sameSource, sameDestination, sameKind⟩ :=
      ends_kind_normalEdge added links.nodeIds other.nodeIds held
    rw [sameSource, sameDestination, sameKind] at ends
    exact ⟨_, ⟨held, member, rfl⟩, ends⟩

/-- Normal forms of the same edges draw the same edges if and only if they list any two ids that are
joined both ways in the same order. -/
theorem mem_normalize_congr_iff :
    (∀ edge, edge ∈ other.normalize.edges ↔ edge ∈ links.normalize.edges) ↔
      ∀ edge ∈ added, edge.flip ∈ added →
        (other.nodeIds.idxOf edge.source < other.nodeIds.idxOf edge.destination ↔
          links.nodeIds.idxOf edge.source < links.nodeIds.idxOf edge.destination) := by
  simp only [mem_edges_normalize_of_same otherHolds same noLoop notBilink drawn,
    mem_edges_normalize_iff holds noLoop notBilink drawn]
  constructor
  · intro equal edge member back
    obtain ⟨held, heldMember, sameEdge⟩ := (equal _).mpr ⟨edge, member, rfl⟩
    rw [normalEdge, normalEdge, if_pos back] at sameEdge
    by_cases heldBack : held.flip ∈ added
    · rw [if_pos heldBack] at sameEdge
      obtain ⟨source, destination, -, order⟩ := Edge.mk.inj sameEdge
      rw [source, destination] at order
      exact decide_eq_decide.mp order
    · rw [if_neg heldBack] at sameEdge
      exact absurd (congrArg Edge.kind sameEdge) (notBilink held heldMember)
  · intro order edge
    refine exists_congr fun held => and_congr_right fun member => ?_
    have equal : normalEdge added other.nodeIds held = normalEdge added links.nodeIds held := by
      unfold normalEdge
      by_cases back : held.flip ∈ added
      · rw [if_pos back, if_pos back, decide_eq_decide.mpr (order held member back)]
      · rw [if_neg back, if_neg back]
    rw [equal]

end SameEdges

end LinkGraph

end OutlineDiagram
