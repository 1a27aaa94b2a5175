/-
This file proves what a link graph holds after edges were added to it. Each id lists
the added edges that leave it and, turned around, those that reach it, both in the
order in which they came. So a link graph is known by the list of the edges that it
holds, and every later pass over it is a statement about that list.
-/

import Mathlib.Data.List.Nodup
import Mathlib.Data.List.Perm.Basic
import OutlineDiagram.Links.Basic

namespace OutlineDiagram

/-- A member is found by its key where no two members share one. -/
theorem find?_eq_some_of_nodup {α Key : Type} [DecidableEq Key] (key : α → Key)
    {members : List α} (distinct : (members.map key).Nodup) {member : α} (inside : member ∈ members) :
    members.find? (fun other => key other == key member) = some member := by
  cases found : members.find? fun other => key other == key member with
  | none => exact absurd (beq_self_eq_true _) (List.find?_eq_none.mp found member inside)
  | some other =>
    have passes := List.find?_some found
    have same := List.inj_on_of_nodup_map distinct (List.mem_of_find?_eq_some found) inside
      (eq_of_beq passes)
    rw [same]

namespace LinkGraph

variable (links : LinkGraph) {id other : String}

/-! ### Entries -/

theorem linksOf_modify_self (change : NodeLinks → NodeLinks) (present : id ∈ links.nodeIds) :
    (links.modify id change).linksOf id = change (links.linksOf id) := by
  obtain ⟨entries⟩ := links
  rw [linksOf, linksOf, modify]
  induction entries with
  | nil => exact absurd present List.not_mem_nil
  | cons entry rest inductionHypothesis =>
    by_cases same : entry.1 = id
    · subst same
      simp
    · have further : id ∈ (LinkGraph.mk rest).nodeIds := by
        rcases List.mem_cons.mp present with isFirst | later
        · exact absurd isFirst.symm same
        · exact later
      simpa [same] using inductionHypothesis further

theorem linksOf_modify_of_ne (change : NodeLinks → NodeLinks) (different : other ≠ id) :
    (links.modify id change).linksOf other = links.linksOf other := by
  obtain ⟨entries⟩ := links
  rw [linksOf, linksOf, modify]
  induction entries with
  | nil => rfl
  | cons entry rest inductionHypothesis =>
    by_cases same : entry.1 = id
    · have notOther : entry.1 ≠ other := fun equal => different (equal.symm.trans same)
      simpa [same, notOther, different.symm] using inductionHypothesis
    · by_cases isOther : entry.1 = other
      · simp [isOther, different]
      · simpa [same, isOther] using inductionHypothesis

theorem nodeIds_modify (change : NodeLinks → NodeLinks) :
    (links.modify id change).nodeIds = links.nodeIds := by
  rw [nodeIds, nodeIds, modify, List.map_map]
  refine List.map_congr_left fun entry _ => ?_
  rw [Function.comp_apply]
  split <;> rfl

theorem touch_of_mem (present : id ∈ links.nodeIds) : links.touch id = links := by
  rw [touch, contains, if_pos (List.contains_iff_mem.mpr present)]

theorem entries_touch_of_not_mem (absent : id ∉ links.nodeIds) :
    (links.touch id).entries = links.entries ++ [(id, NodeLinks.mk [] [])] := by
  rw [touch, contains, if_neg (fun found => absent (List.contains_iff_mem.mp found))]

theorem nodeIds_touch_of_not_mem (absent : id ∉ links.nodeIds) :
    (links.touch id).nodeIds = links.nodeIds ++ [id] := by
  rw [nodeIds, entries_touch_of_not_mem links absent, List.map_append]
  rfl

theorem mem_nodeIds_touch :
    other ∈ (links.touch id).nodeIds ↔ other ∈ links.nodeIds ∨ other = id := by
  by_cases present : id ∈ links.nodeIds
  · rw [touch_of_mem links present]
    exact ⟨Or.inl, fun member => member.elim (fun found => found) fun same => same ▸ present⟩
  · rw [nodeIds_touch_of_not_mem links present, List.mem_append, List.mem_singleton]

theorem nodup_nodeIds_touch (distinct : links.nodeIds.Nodup) : (links.touch id).nodeIds.Nodup := by
  by_cases present : id ∈ links.nodeIds
  · rw [touch_of_mem links present]
    exact distinct
  · rw [nodeIds_touch_of_not_mem links present]
    refine List.nodup_append.mpr ⟨distinct, List.nodup_singleton id, ?_⟩
    intro first member second single same
    rw [List.mem_singleton.mp single] at same
    exact present (same ▸ member)

theorem linksOf_touch : (links.touch id).linksOf other = links.linksOf other := by
  by_cases present : id ∈ links.nodeIds
  · rw [touch_of_mem links present]
  · rw [linksOf, entries_touch_of_not_mem links present, List.find?_append, linksOf]
    cases found : links.entries.find? fun entry => entry.1 == other with
    | some entry => rfl
    | none =>
      rw [Option.none_or, List.find?_singleton]
      split <;> rfl

theorem linksOf_modify_touch (change : NodeLinks → NodeLinks) :
    ((links.touch id).modify id change).linksOf other =
      if other = id then change (links.linksOf other) else links.linksOf other := by
  by_cases same : other = id
  · rw [if_pos same, same, linksOf_modify_self _ _ ((mem_nodeIds_touch links).mpr (Or.inr rfl)),
      linksOf_touch]
  · rw [if_neg same, linksOf_modify_of_ne _ _ same, linksOf_touch]

/-! ### Added edges -/

/-- The edges that are added when given ones are: those without an empty end. -/
def kept (edges : List Edge) : List Edge :=
  (edges.filter fun edge => edge.source != "" && edge.destination != "").map fun edge =>
    { edge with mustRender := true }

theorem kept_append (first second : List Edge) :
    kept (first ++ second) = kept first ++ kept second := by
  rw [kept, List.filter_append, List.map_append]
  rfl

theorem exists_of_mem_kept {edges : List Edge} {edge : Edge} (member : edge ∈ kept edges) :
    ∃ given ∈ edges, edge = { given with mustRender := true } := by
  obtain ⟨given, found, rfl⟩ := List.mem_map.mp member
  exact ⟨given, (List.mem_filter.mp found).1, rfl⟩

theorem mem_kept_iff {edges : List Edge} (drawn : ∀ edge ∈ edges, edge.mustRender = true)
    {edge : Edge} :
    edge ∈ kept edges ↔ edge ∈ edges ∧ edge.source ≠ "" ∧ edge.destination ≠ "" := by
  have asBefore : ∀ other ∈ edges, { other with mustRender := true } = other :=
    fun other member => by rw [← drawn other member]
  rw [kept, List.mem_map]
  constructor
  · rintro ⟨other, found, rfl⟩
    obtain ⟨member, ends⟩ := List.mem_filter.mp found
    rw [asBefore other member]
    exact ⟨member, by simpa using ends⟩
  · rintro ⟨member, ends⟩
    exact ⟨edge, List.mem_filter.mpr ⟨member, by simpa using ends⟩, asBefore edge member⟩

theorem named_of_mem_kept {edges : List Edge} {edge : Edge} (member : edge ∈ kept edges) :
    edge.source ≠ "" ∧ edge.destination ≠ "" := by
  obtain ⟨given, found, rfl⟩ := List.mem_map.mp member
  simpa using (List.mem_filter.mp found).2

/-- Drawn edges between names are added as they are. -/
theorem kept_eq_self {edges : List Edge} (drawn : ∀ edge ∈ edges, edge.mustRender = true)
    (named : ∀ edge ∈ edges, edge.source ≠ "" ∧ edge.destination ≠ "") : kept edges = edges := by
  have whole : (edges.filter fun edge => edge.source != "" && edge.destination != "") = edges :=
    List.filter_eq_self.mpr fun edge member => by simpa using named edge member
  have asBefore : ∀ edge ∈ edges, { edge with mustRender := true } = edge :=
    fun edge member => by rw [← drawn edge member]
  rw [kept, whole, List.map_congr_left asBefore, List.map_id']

theorem kept_singleton_of_empty {edge : Edge} (empty : edge.source = "" ∨ edge.destination = "") :
    kept [edge] = [] := by
  rw [kept, List.filter_cons_of_neg (by rcases empty with same | same <;> simp [same])]
  rfl

theorem kept_singleton_of_named {edge : Edge} (hasSource : edge.source ≠ "")
    (hasDestination : edge.destination ≠ "") :
    kept [edge] = [{ edge with mustRender := true }] := by
  rw [kept, List.filter_cons_of_pos (by simp [hasSource, hasDestination])]
  rfl

/-- The links of a graph are those of the edges in a list, in the order of the list. -/
structure Holds (links : LinkGraph) (added : List Edge) : Prop where
  /-- Each id has one entry. -/
  nodup : links.nodeIds.Nodup
  /-- The ids are those at the ends of the edges. -/
  touched : ∀ id, id ∈ links.nodeIds ↔ ∃ edge ∈ added, edge.source = id ∨ edge.destination = id
  /-- An id lists the edges that leave it. -/
  outputs : ∀ id, links.outputs id = added.filter fun edge => edge.source == id
  /-- An id lists the edges that reach it, turned around. -/
  inputs : ∀ id, links.inputs id = (added.filter fun edge => edge.destination == id).map Edge.flip

theorem holds_empty : Holds {} [] where
  nodup := List.nodup_nil
  touched _ := ⟨fun member => absurd member List.not_mem_nil, fun ⟨_, member, _⟩ =>
    absurd member List.not_mem_nil⟩
  outputs _ := rfl
  inputs _ := rfl

variable {links}

theorem addEdge_of_empty {source destination : String} (kind : EdgeKind)
    (empty : source = "" ∨ destination = "") : links.addEdge source destination kind = links := by
  rw [LinkGraph.addEdge, if_pos]
  rcases empty with rfl | rfl <;> simp

section Named

variable {source destination : String} (kind : EdgeKind) (hasSource : source ≠ "")
  (hasDestination : destination ≠ "")

include hasSource hasDestination

theorem addEdge_of_named : links.addEdge source destination kind =
    ((((links.touch source).modify source fun own =>
      { own with outputs := own.outputs ++ [⟨source, destination, kind, true⟩] }).touch
        destination).modify destination fun own =>
      { own with inputs := own.inputs ++ [⟨destination, source, kind, true⟩] }) := by
  rw [LinkGraph.addEdge, if_neg (by simp [hasSource, hasDestination])]

theorem outputs_addEdge (id : String) :
    (links.addEdge source destination kind).outputs id = links.outputs id ++
      if id = source then [⟨source, destination, kind, true⟩] else [] := by
  rw [outputs, addEdge_of_named kind hasSource hasDestination, linksOf_modify_touch,
    linksOf_modify_touch, outputs]
  by_cases isSource : id = source
  · by_cases isDestination : id = destination
    · rw [if_pos isSource, if_pos isSource, if_pos isDestination]
    · rw [if_pos isSource, if_pos isSource, if_neg isDestination]
  · by_cases isDestination : id = destination
    · rw [if_neg isSource, if_neg isSource, if_pos isDestination, List.append_nil]
    · rw [if_neg isSource, if_neg isSource, if_neg isDestination, List.append_nil]

theorem inputs_addEdge (id : String) :
    (links.addEdge source destination kind).inputs id = links.inputs id ++
      if id = destination then [⟨destination, source, kind, true⟩] else [] := by
  rw [inputs, addEdge_of_named kind hasSource hasDestination, linksOf_modify_touch,
    linksOf_modify_touch, inputs]
  by_cases isSource : id = source
  · by_cases isDestination : id = destination
    · rw [if_pos isSource, if_pos isDestination, if_pos isDestination]
    · rw [if_pos isSource, if_neg isDestination, if_neg isDestination, List.append_nil]
  · by_cases isDestination : id = destination
    · rw [if_neg isSource, if_pos isDestination, if_pos isDestination]
    · rw [if_neg isSource, if_neg isDestination, if_neg isDestination, List.append_nil]

theorem mem_nodeIds_addEdge (id : String) :
    id ∈ (links.addEdge source destination kind).nodeIds ↔
      (id ∈ links.nodeIds ∨ id = source) ∨ id = destination := by
  rw [addEdge_of_named kind hasSource hasDestination, nodeIds_modify, mem_nodeIds_touch,
    nodeIds_modify, mem_nodeIds_touch]

theorem nodup_nodeIds_addEdge (distinct : links.nodeIds.Nodup) :
    (links.addEdge source destination kind).nodeIds.Nodup := by
  rw [addEdge_of_named kind hasSource hasDestination, nodeIds_modify]
  refine nodup_nodeIds_touch _ ?_
  rw [nodeIds_modify]
  exact nodup_nodeIds_touch _ distinct

end Named

/-- After an edge was added the graph holds it too, unless one of its ends is empty. -/
theorem Holds.addEdge {added : List Edge} (holds : links.Holds added) (edge : Edge) :
    (links.addEdge edge.source edge.destination edge.kind).Holds (added ++ kept [edge]) := by
  by_cases empty : edge.source = "" ∨ edge.destination = ""
  · rw [addEdge_of_empty edge.kind empty, kept_singleton_of_empty empty, List.append_nil]
    exact holds
  · obtain ⟨hasSource, hasDestination⟩ := not_or.mp empty
    rw [kept_singleton_of_named hasSource hasDestination]
    refine ⟨nodup_nodeIds_addEdge _ hasSource hasDestination holds.nodup, fun id => ?_,
      fun id => ?_, fun id => ?_⟩
    · rw [mem_nodeIds_addEdge _ hasSource hasDestination, holds.touched, or_assoc]
      constructor
      · rintro (⟨found, member, ends⟩ | ends)
        · exact ⟨found, List.mem_append_left _ member, ends⟩
        · exact ⟨_, List.mem_append_right _ List.mem_cons_self, ends.imp Eq.symm Eq.symm⟩
      · rintro ⟨found, member, ends⟩
        rcases List.mem_append.mp member with old | new
        · exact Or.inl ⟨found, old, ends⟩
        · rw [List.mem_singleton.mp new] at ends
          exact Or.inr (ends.imp Eq.symm Eq.symm)
    · rw [outputs_addEdge _ hasSource hasDestination, holds.outputs, List.filter_append]
      by_cases isSource : id = edge.source
      · rw [if_pos isSource, List.filter_cons_of_pos (by simp [isSource])]
        rfl
      · rw [if_neg isSource, List.filter_cons_of_neg (by simp [Ne.symm isSource])]
        rfl
    · rw [inputs_addEdge _ hasSource hasDestination, holds.inputs, List.filter_append,
        List.map_append]
      by_cases isDestination : id = edge.destination
      · rw [if_pos isDestination, List.filter_cons_of_pos (by simp [isDestination])]
        rfl
      · rw [if_neg isDestination, List.filter_cons_of_neg (by simp [Ne.symm isDestination])]
        rfl

/-- After edges were added the graph holds them too, but for those with an empty end. -/
theorem Holds.addEdges {added : List Edge} (holds : links.Holds added) (edges : List Edge) :
    (links.addEdges edges).Holds (added ++ kept edges) := by
  induction edges generalizing links added with
  | nil =>
    rw [kept, List.filter_nil, List.map_nil, List.append_nil]
    exact holds
  | cons edge rest inductionHypothesis =>
    have further := inductionHypothesis (holds.addEdge edge)
    rw [List.append_assoc, ← kept_append] at further
    exact further

theorem holds_addEdges (edges : List Edge) : (addEdges {} edges).Holds (kept edges) :=
  holds_empty.addEdges edges

/-! ### All edges -/

theorem linksOf_of_mem (distinct : links.nodeIds.Nodup) {entry : String × NodeLinks}
    (member : entry ∈ links.entries) : links.linksOf entry.1 = entry.2 := by
  rw [linksOf, find?_eq_some_of_nodup Prod.fst distinct member]
  rfl

theorem edges_eq (distinct : links.nodeIds.Nodup) :
    links.edges = links.nodeIds.flatMap links.outputs := by
  rw [edges, nodeIds, List.flatMap_map]
  refine List.flatMap_congr fun entry member => ?_
  rw [outputs, linksOf_of_mem distinct member]

/-- Picking the members of a list class by class only reorders them. -/
theorem flatMap_filter_perm {Member Key : Type} [DecidableEq Key] (key : Member → Key)
    {keys : List Key}
    (distinct : keys.Nodup) (members : List Member) :
    (keys.flatMap fun one => members.filter fun member => key member == one).Perm
      (members.filter fun member => keys.contains (key member)) := by
  induction keys with
  | nil => simp
  | cons first rest inductionHypothesis =>
    obtain ⟨fresh, restDistinct⟩ := List.nodup_cons.mp distinct
    rw [List.flatMap_cons]
    refine ((inductionHypothesis restDistinct).append_left _).trans ?_
    have split := List.filter_append_perm (fun member => key member == first)
      (members.filter fun member => (first :: rest).contains (key member))
    rw [List.filter_filter, List.filter_filter] at split
    refine (List.Perm.of_eq (congrArg₂ _ (List.filter_congr fun member _ => ?_)
      (List.filter_congr fun member _ => ?_))).trans split
    · by_cases isFirst : key member = first
      · simp [isFirst]
      · simp [isFirst]
    · by_cases isFirst : key member = first
      · simp [isFirst, fresh]
      · simp [isFirst]

/-- All edges of a graph are the edges it holds. -/
theorem Holds.edges_perm {added : List Edge} (holds : links.Holds added) :
    links.edges.Perm added := by
  rw [edges_eq holds.nodup, funext holds.outputs]
  refine (flatMap_filter_perm Edge.source holds.nodup added).trans (List.Perm.of_eq ?_)
  refine List.filter_eq_self.mpr fun edge member => ?_
  exact List.contains_iff_mem.mpr ((holds.touched _).mpr ⟨edge, member, Or.inl rfl⟩)

/-- No edge has an empty end where all were added. -/
theorem named_of_mem_edges_addEdges (edges : List Edge) :
    ∀ edge ∈ (addEdges {} edges).edges, edge.source ≠ "" ∧ edge.destination ≠ "" := by
  intro edge member
  exact named_of_mem_kept ((holds_addEdges edges).edges_perm.mem_iff.mp member)

end LinkGraph

end OutlineDiagram
