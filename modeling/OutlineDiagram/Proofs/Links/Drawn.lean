/-
This file proves that the normal form draws each connection once. It tells what every id
lists there, by the edges that were added: each of them stays once, and one whose opposite
was added too becomes half of a pair, of which the half is drawn that leaves the id listed
first. An edge is redrawn the same way where it leaves and where it reaches, so both of its
ends keep listing it equally often.
-/

import OutlineDiagram.Proofs.Links.Normal

namespace OutlineDiagram

/-! ### Lists of the normal form -/

/-- An edge after some edges led a pair has one kind at both of its ends. -/
theorem Edge.settledFar_flip (leaders : List Edge) (edge : Edge) :
    edge.flip.settledFar leaders = { edge.flip with kind := (edge.settled leaders).kind } := by
  unfold Edge.settledFar Edge.settled
  rw [Edge.flip_flip]
  by_cases own : edge ∈ leaders
  · rw [if_pos (Or.inr own), if_pos own]
    rfl
  · by_cases opposite : edge.flip ∈ leaders
    · rw [if_pos (Or.inl opposite), if_neg own, if_pos opposite]
      rfl
    · rw [if_neg (not_or.mpr ⟨opposite, own⟩), if_neg own, if_neg opposite]
      rfl

namespace LinkGraph

/-- An edge in the normal form as the id that it reaches lists it. -/
def farEdge (added : List Edge) (ids : List String) (edge : Edge) : Edge :=
  { edge.flip with kind := (normalEdge added ids edge).kind }

theorem source_normalEdge (added : List Edge) (ids : List String) (edge : Edge) :
    (normalEdge added ids edge).source = edge.source := by
  unfold normalEdge
  split <;> rfl

theorem destination_normalEdge (added : List Edge) (ids : List String) (edge : Edge) :
    (normalEdge added ids edge).destination = edge.destination := by
  unfold normalEdge
  split <;> rfl

variable {links : LinkGraph} {added : List Edge}

theorem normalEdge_of_mem {ids : List String} {edge : Edge} (opposite : edge.flip ∈ added) :
    normalEdge added ids edge = { edge with
      kind := .bilink
      mustRender := ids.idxOf edge.source < ids.idxOf edge.destination } := if_pos opposite

theorem normalEdge_of_not_mem {ids : List String} {edge : Edge} (alone : edge.flip ∉ added) :
    normalEdge added ids edge = edge := if_neg alone

/-- Edges that can be brought into normal form: none is a loop, none is half of a pair, and all are
drawn. -/
structure Unmerged (added : List Edge) : Prop where
  /-- No edge leads from an id to itself. -/
  noLoop : ∀ edge ∈ added, edge.source ≠ edge.destination
  /-- No edge is a half of a pair. -/
  notBilink : ∀ edge ∈ added, edge.kind ≠ .bilink
  /-- Every edge is drawn. -/
  drawn : ∀ edge ∈ added, edge.mustRender = true

theorem Unmerged.plain (unmerged : Unmerged added) : Plain (uniqueBy Edge.sameAs added) :=
  plain_uniqueBy unmerged.noLoop unmerged.notBilink unmerged.drawn

theorem Unmerged.mem_uniqueBy_iff (unmerged : Unmerged added) {edge : Edge} :
    edge ∈ uniqueBy Edge.sameAs added ↔ edge ∈ added :=
  Edge.mem_uniqueBy_sameAs_iff unmerged.drawn

theorem nodeIds_normalize (holds : links.Holds added) (unmerged : Unmerged added) :
    links.normalize.nodeIds = links.nodeIds := by
  rw [normalize, merged_eq (holds.withoutRepeats unmerged.drawn) unmerged.plain, settle,
    nodeIds_mapLinks]
  exact nodeIds_mapLinks NodeLinks.withoutRepeats links

/-- The normal form settles each edge that stays as it is drawn in the end. -/
theorem settled_eq_normalEdge (holds : links.Holds added) (unmerged : Unmerged added) {edge : Edge}
    (member : edge ∈ uniqueBy Edge.sameAs added) :
    edge.settled (leadersOf (uniqueBy Edge.sameAs added) links.withoutRepeats.edges) =
      normalEdge added links.nodeIds edge := by
  have sameIds : links.withoutRepeats.nodeIds = links.nodeIds :=
    nodeIds_mapLinks NodeLinks.withoutRepeats links
  rw [settled_leadersOf (holds.withoutRepeats unmerged.drawn) unmerged.plain member, normalEdge,
    normalEdge, sameIds]
  simp only [unmerged.mem_uniqueBy_iff]

/-- In the normal form an id lists the edges that leave it, each once. -/
theorem outputs_normalize (holds : links.Holds added) (unmerged : Unmerged added) (id : String) :
    links.normalize.outputs id =
      ((uniqueBy Edge.sameAs added).filter fun edge => edge.source == id).map
        (normalEdge added links.nodeIds) := by
  have once := holds.withoutRepeats unmerged.drawn
  rw [normalize, merged_eq once unmerged.plain, outputs_settle, once.outputs]
  exact List.map_congr_left fun edge member =>
    settled_eq_normalEdge holds unmerged (List.mem_filter.mp member).1

/-- In the normal form an id lists the edges that reach it, each once and turned around. -/
theorem inputs_normalize (holds : links.Holds added) (unmerged : Unmerged added) (id : String) :
    links.normalize.inputs id =
      ((uniqueBy Edge.sameAs added).filter fun edge => edge.destination == id).map
        (farEdge added links.nodeIds) := by
  have once := holds.withoutRepeats unmerged.drawn
  rw [normalize, merged_eq once unmerged.plain, inputs_settle, once.inputs, List.map_map]
  refine List.map_congr_left fun edge member => ?_
  rw [Function.comp_apply, Edge.settledFar_flip,
    settled_eq_normalEdge holds unmerged (List.mem_filter.mp member).1, farEdge]

theorem mem_outputs_normalize_iff (holds : links.Holds added) (unmerged : Unmerged added)
    {id : String} {edge : Edge} :
    edge ∈ links.normalize.outputs id ↔
      ∃ origin ∈ added, origin.source = id ∧ normalEdge added links.nodeIds origin = edge := by
  rw [outputs_normalize holds unmerged, List.mem_map]
  refine exists_congr fun origin => ?_
  rw [List.mem_filter, unmerged.mem_uniqueBy_iff, beq_iff_eq, and_assoc]

theorem mem_inputs_normalize_iff (holds : links.Holds added) (unmerged : Unmerged added)
    {id : String} {edge : Edge} :
    edge ∈ links.normalize.inputs id ↔
      ∃ origin ∈ added, origin.destination = id ∧ farEdge added links.nodeIds origin = edge := by
  rw [inputs_normalize holds unmerged, List.mem_map]
  refine exists_congr fun origin => ?_
  rw [List.mem_filter, unmerged.mem_uniqueBy_iff, beq_iff_eq, and_assoc]

/-- An edge becomes a half of a pair exactly if its opposite is there. -/
theorem Unmerged.kind_normalEdge_iff (unmerged : Unmerged added) (ids : List String) {edge : Edge}
    (member : edge ∈ added) :
    (normalEdge added ids edge).kind = .bilink ↔ edge.flip ∈ added := by
  by_cases opposite : edge.flip ∈ added
  · rw [normalEdge_of_mem opposite]
    exact iff_of_true rfl opposite
  · rw [normalEdge_of_not_mem opposite]
    exact iff_of_false (unmerged.notBilink edge member) opposite

/-! ### Both ends -/

/-- Each edge is listed where it leaves as often as where it reaches. -/
def IsMirrored (links : LinkGraph) : Prop :=
  ∀ source destination kind,
    (links.outputs source).countP (Edge.sameAs ⟨source, destination, kind, true⟩) =
      (links.inputs destination).countP (Edge.sameAs ⟨destination, source, kind, true⟩)

theorem isMirrored_normalize (holds : links.Holds added) (unmerged : Unmerged added) :
    links.normalize.IsMirrored := by
  intro source destination kind
  rw [outputs_normalize holds unmerged, inputs_normalize holds unmerged, List.countP_map,
    List.countP_map, List.countP_filter, List.countP_filter]
  refine List.countP_congr fun edge _ => ?_
  simp only [Function.comp_apply, Bool.and_eq_true, beq_iff_eq, Edge.sameAs_iff,
    source_normalEdge, destination_normalEdge, farEdge, Edge.flip]
  exact ⟨fun ⟨⟨leaves, reaches, same⟩, _⟩ => ⟨⟨reaches, leaves, same⟩, reaches.symm⟩,
    fun ⟨⟨reaches, leaves, same⟩, _⟩ => ⟨⟨leaves, reaches, same⟩, leaves.symm⟩⟩

end LinkGraph

/-! ### Connections -/

/-- An edge was added when it was among given ones. None is added at the empty id, which is
nobody's. -/
def IsAdded (given : List Edge) (source destination : String) (kind : EdgeKind) : Prop :=
  (∃ edge ∈ given, edge.source = source ∧ edge.destination = destination ∧ edge.kind = kind) ∧
    source ≠ "" ∧ destination ≠ ""

instance (given : List Edge) (source destination : String) (kind : EdgeKind) :
    Decidable (IsAdded given source destination kind) :=
  inferInstanceAs (Decidable (_ ∧ _))

/-- The kinds of the edges that were added between two ids both ways. -/
def kindsBothWays (given : List Edge) (one other : String) : List EdgeKind :=
  [.hierarchy, .flow, .link].filter fun kind =>
    IsAdded given one other kind ∧ IsAdded given other one kind

/-- Edges draw each connection between ids that are listed in some order once. -/
structure DrawsConnections (given : List Edge) (order : List String) (edges : List Edge) :
    Prop where
  /-- An edge that was added without its opposite is drawn once, and no other edge of its kind. -/
  count_single : ∀ source destination kind, kind ≠ .bilink →
    edges.count ⟨source, destination, kind, true⟩ =
      if IsAdded given source destination kind ∧ ¬ IsAdded given destination source kind then 1
      else 0
  /-- For each kind of edges that were added both ways one pair is drawn, from the id that is
  listed first. -/
  count_pair : ∀ source destination,
    edges.count ⟨source, destination, .bilink, true⟩ =
      if order.idxOf source < order.idxOf destination then
        (kindsBothWays given source destination).length
      else 0
  /-- Each pair that is drawn has one opposite half that is not drawn. -/
  count_opposite : ∀ source destination,
    edges.count ⟨source, destination, .bilink, false⟩ =
      edges.count ⟨destination, source, .bilink, true⟩
  /-- Whatever is not drawn is such a half. -/
  kind_of_not_drawn : ∀ edge ∈ edges, edge.mustRender = false → edge.kind = .bilink

namespace LinkGraph

variable {given : List Edge}

theorem mem_kept_iff_isAdded {edge : Edge} :
    edge ∈ kept given ↔
      edge.mustRender = true ∧ IsAdded given edge.source edge.destination edge.kind := by
  rw [kept, List.mem_map]
  constructor
  · rintro ⟨call, found, rfl⟩
    obtain ⟨inside, ends⟩ := List.mem_filter.mp found
    exact ⟨rfl, ⟨call, inside, rfl, rfl, rfl⟩, by simpa using ends⟩
  · obtain ⟨source, destination, kind, drawn⟩ := edge
    rintro ⟨isDrawn, ⟨call, inside, rfl, rfl, rfl⟩, ends⟩
    dsimp only at isDrawn ends
    exact ⟨call, List.mem_filter.mpr ⟨inside, by simpa using ends⟩, by rw [isDrawn]⟩

theorem unmerged_kept (noLoop : ∀ edge ∈ given, edge.source ≠ edge.destination)
    (notBilink : ∀ edge ∈ given, edge.kind ≠ .bilink) : Unmerged (kept given) := by
  refine ⟨fun edge member => ?_, fun edge member => ?_, fun edge member => ?_⟩
  · obtain ⟨call, inside, rfl⟩ := exists_of_mem_kept member
    exact noLoop call inside
  · obtain ⟨call, inside, rfl⟩ := exists_of_mem_kept member
    exact notBilink call inside
  · exact (mem_kept_iff_isAdded.mp member).1

/-- An edge that is no half of a pair in the normal form is as it was, and its opposite was not
added. -/
theorem normalEdge_eq_iff_of_kind {added : List Edge} {ids : List String} {edge other : Edge}
    (kind : other.kind ≠ .bilink) :
    normalEdge added ids edge = other ↔ edge = other ∧ other.flip ∉ added := by
  by_cases opposite : edge.flip ∈ added
  · rw [normalEdge_of_mem opposite]
    refine ⟨fun same => absurd (congrArg Edge.kind same).symm kind, ?_⟩
    rintro ⟨rfl, alone⟩
    exact absurd opposite alone
  · rw [normalEdge_of_not_mem opposite]
    refine ⟨?_, And.left⟩
    rintro rfl
    exact ⟨rfl, opposite⟩

section Counts

variable {ids : List String} (unmerged : Unmerged (kept given))

include unmerged

/-- A half of a pair in the normal form comes from an edge whose opposite was added. -/
theorem normalEdge_eq_bilink_iff {edge : Edge} (member : edge ∈ kept given)
    {source destination : String} {isDrawn : Bool} :
    normalEdge (kept given) ids edge = ⟨source, destination, .bilink, isDrawn⟩ ↔
      (edge.source = source ∧ edge.destination = destination ∧ edge.flip ∈ kept given) ∧
        decide (ids.idxOf source < ids.idxOf destination) = isDrawn := by
  by_cases opposite : edge.flip ∈ kept given
  · rw [normalEdge_of_mem opposite, Edge.mk.injEq]
    constructor
    · rintro ⟨rfl, rfl, -, order⟩
      exact ⟨⟨rfl, rfl, opposite⟩, order⟩
    · rintro ⟨⟨rfl, rfl, -⟩, order⟩
      exact ⟨rfl, rfl, rfl, order⟩
  · rw [normalEdge_of_not_mem opposite]
    refine ⟨fun same => ?_, fun both => absurd both.1.2.2 opposite⟩
    rw [same] at member
    exact absurd rfl (unmerged.notBilink _ member)

/-- Between two ids as many edges with opposites stay as there are kinds of them. -/
theorem countP_bothWays (source destination : String) :
    (uniqueBy Edge.sameAs (kept given)).countP (fun edge =>
        decide (edge.source = source ∧ edge.destination = destination ∧ edge.flip ∈ kept given)) =
      (kindsBothWays given source destination).length := by
  have unique := nodup_uniqueBy Edge.sameAs_refl (kept given)
  rw [List.countP_eq_length_filter, ← List.length_map Edge.kind]
  refine List.Perm.length_eq ((List.perm_ext_iff_of_nodup ?_ ?_).mpr fun kind => ?_)
  · -- Two of these edges have the same ends, so they differ in their kinds.
    refine List.Nodup.map_on ?_ (unique.filter _)
    intro one oneMember other otherMember same
    obtain ⟨oneInside, oneEnds⟩ := List.mem_filter.mp oneMember
    obtain ⟨otherInside, otherEnds⟩ := List.mem_filter.mp otherMember
    have oneIs := of_decide_eq_true oneEnds
    have otherIs := of_decide_eq_true otherEnds
    exact Edge.eq_of_sameAs
      (Edge.sameAs_iff.mpr ⟨oneIs.1.trans otherIs.1.symm, oneIs.2.1.trans otherIs.2.1.symm, same⟩)
      (unmerged.drawn one (unmerged.mem_uniqueBy_iff.mp oneInside))
      (unmerged.drawn other (unmerged.mem_uniqueBy_iff.mp otherInside))
  · exact List.Nodup.filter _ (by decide)
  · rw [List.mem_map, kindsBothWays, List.mem_filter, decide_eq_true_iff]
    constructor
    · rintro ⟨edge, found, rfl⟩
      obtain ⟨inside, ends⟩ := List.mem_filter.mp found
      obtain ⟨rfl, rfl, opposite⟩ := of_decide_eq_true ends
      have member := unmerged.mem_uniqueBy_iff.mp inside
      refine ⟨?_, (mem_kept_iff_isAdded.mp member).2, (mem_kept_iff_isAdded.mp opposite).2⟩
      have single := unmerged.notBilink edge member
      cases known : edge.kind with
      | hierarchy => exact List.mem_cons_self
      | flow => exact List.mem_cons_of_mem _ List.mem_cons_self
      | link => exact List.mem_cons_of_mem _ (List.mem_cons_of_mem _ List.mem_cons_self)
      | bilink => exact absurd known single
    · rintro ⟨-, forth, back⟩
      have member : ⟨source, destination, kind, true⟩ ∈ kept given :=
        mem_kept_iff_isAdded.mpr ⟨rfl, forth⟩
      have opposite : Edge.flip ⟨source, destination, kind, true⟩ ∈ kept given :=
        mem_kept_iff_isAdded.mpr ⟨rfl, back⟩
      exact ⟨_, List.mem_filter.mpr ⟨unmerged.mem_uniqueBy_iff.mpr member,
        decide_eq_true ⟨rfl, rfl, opposite⟩⟩, rfl⟩

/-- Of the halves of pairs between two ids those are drawn that leave the id listed first. -/
theorem countP_normalEdge_bilink (source destination : String) (isDrawn : Bool) :
    (uniqueBy Edge.sameAs (kept given)).countP (fun edge =>
        normalEdge (kept given) ids edge == ⟨source, destination, .bilink, isDrawn⟩) =
      if decide (ids.idxOf source < ids.idxOf destination) = isDrawn then
        (kindsBothWays given source destination).length
      else 0 := by
  have half : ∀ edge ∈ uniqueBy Edge.sameAs (kept given),
      ((normalEdge (kept given) ids edge == ⟨source, destination, .bilink, isDrawn⟩) = true ↔
        (edge.source = source ∧ edge.destination = destination ∧ edge.flip ∈ kept given) ∧
          decide (ids.idxOf source < ids.idxOf destination) = isDrawn) := by
    intro edge member
    rw [beq_iff_eq]
    exact normalEdge_eq_bilink_iff unmerged (unmerged.mem_uniqueBy_iff.mp member)
  by_cases order : decide (ids.idxOf source < ids.idxOf destination) = isDrawn
  · rw [if_pos order, ← countP_bothWays unmerged]
    refine List.countP_congr fun edge member => (half edge member).trans ?_
    rw [and_iff_left order, decide_eq_true_iff]
  · rw [if_neg order, List.countP_eq_zero]
    exact fun edge member same => order ((half edge member).mp same).2

/-- An edge that is no half of a pair is there once if it was added and its opposite was not. -/
theorem countP_normalEdge_single {edge : Edge} (kind : edge.kind ≠ .bilink) :
    (uniqueBy Edge.sameAs (kept given)).countP (fun other =>
        normalEdge (kept given) ids other == edge) =
      if edge ∈ kept given ∧ edge.flip ∉ kept given then 1 else 0 := by
  have same : ∀ other ∈ uniqueBy Edge.sameAs (kept given),
      ((normalEdge (kept given) ids other == edge) = true ↔
        other = edge ∧ edge.flip ∉ kept given) := by
    intro other _
    rw [beq_iff_eq]
    exact normalEdge_eq_iff_of_kind kind
  by_cases opposite : edge.flip ∈ kept given
  · rw [if_neg (fun both => both.2 opposite), List.countP_eq_zero]
    exact fun other member isSame => ((same other member).mp isSame).2 opposite
  · have isCount : (uniqueBy Edge.sameAs (kept given)).countP (fun other =>
        normalEdge (kept given) ids other == edge) =
          (uniqueBy Edge.sameAs (kept given)).count edge := by
      refine List.countP_congr fun other member => (same other member).trans ?_
      rw [and_iff_left opposite, beq_iff_eq]
    rw [isCount, (nodup_uniqueBy Edge.sameAs_refl _).count]
    refine if_congr ?_ rfl rfl
    rw [unmerged.mem_uniqueBy_iff, and_iff_left opposite]

end Counts

/-- Two ids are joined both ways by edges of the same kinds, seen from either. -/
theorem kindsBothWays_comm (given : List Edge) (one other : String) :
    kindsBothWays given one other = kindsBothWays given other one :=
  List.filter_congr fun _ _ => decide_eq_decide.mpr and_comm

/-- An id is not joined to itself where no edge is a loop. -/
theorem kindsBothWays_self (noLoop : ∀ edge ∈ given, edge.source ≠ edge.destination)
    (id : String) : kindsBothWays given id id = [] := by
  refine List.filter_eq_nil_iff.mpr fun kind _ both => ?_
  obtain ⟨⟨⟨edge, inside, leaves, reaches, -⟩, -⟩, -⟩ := of_decide_eq_true both
  exact noLoop edge inside (leaves.trans reaches.symm)

/-- Two ids that are joined both ways are listed. -/
theorem mem_nodeIds_of_kindsBothWays {links : LinkGraph} (holds : links.Holds (kept given))
    {one other : String} (joined : kindsBothWays given one other ≠ []) : one ∈ links.nodeIds := by
  obtain ⟨kind, member⟩ := List.exists_mem_of_ne_nil _ joined
  have added := (of_decide_eq_true (List.mem_filter.mp member).2).1
  exact (holds.touched one).mpr
    ⟨⟨one, other, kind, true⟩, mem_kept_iff_isAdded.mpr ⟨rfl, added⟩, Or.inl rfl⟩

/-- The normal form of a graph draws each connection once: an edge without opposite as it was added,
and edges with opposites as one pair for each kind, from the id that comes first. What is not drawn
are the opposite halves of these pairs, and each edge stays listed at both of its ends. -/
theorem drawsConnections_normalize (noLoop : ∀ edge ∈ given, edge.source ≠ edge.destination)
    (notBilink : ∀ edge ∈ given, edge.kind ≠ .bilink) :
    (addEdges {} given).normalize.nodeIds = (addEdges {} given).nodeIds ∧
      DrawsConnections given (addEdges {} given).nodeIds (addEdges {} given).normalize.edges ∧
        (addEdges {} given).normalize.IsMirrored := by
  have unmerged := unmerged_kept noLoop notBilink
  have holds := holds_addEdges given
  have counted : ∀ edge, (addEdges {} given).normalize.edges.count edge =
      (uniqueBy Edge.sameAs (kept given)).countP fun other =>
        normalEdge (kept given) (addEdges {} given).nodeIds other == edge := by
    intro edge
    have perm := edges_normalize_perm holds unmerged.noLoop unmerged.notBilink unmerged.drawn
    rw [perm.count_eq, List.count, List.countP_map]
    rfl
  refine ⟨nodeIds_normalize holds unmerged, ?_, isMirrored_normalize holds unmerged⟩
  refine ⟨fun source destination kind single => ?_, fun source destination => ?_,
    fun source destination => ?_, fun edge member hidden => ?_⟩
  · rw [counted, countP_normalEdge_single unmerged single]
    refine if_congr (and_congr ?_ (not_congr ?_)) rfl rfl
    · rw [mem_kept_iff_isAdded]
      exact and_iff_right rfl
    · rw [mem_kept_iff_isAdded]
      exact and_iff_right rfl
  · rw [counted, countP_normalEdge_bilink unmerged]
    exact if_congr decide_eq_true_iff rfl rfl
  · rw [counted, counted, countP_normalEdge_bilink unmerged, countP_normalEdge_bilink unmerged,
      kindsBothWays_comm given destination source]
    by_cases joined : kindsBothWays given source destination = []
    · rw [joined, List.length_nil, ite_self, ite_self]
    · -- Both ids are listed and they differ, so one of them comes first.
      have touched := mem_nodeIds_of_kindsBothWays holds joined
      have apart : (addEdges {} given).nodeIds.idxOf source ≠
          (addEdges {} given).nodeIds.idxOf destination := by
        intro same
        rw [(List.idxOf_inj touched).mp same, kindsBothWays_self noLoop] at joined
        exact joined rfl
      refine if_congr ?_ rfl rfl
      rw [decide_eq_false_iff_not, decide_eq_true_iff]
      omega
  · have perm := edges_normalize_perm holds unmerged.noLoop unmerged.notBilink unmerged.drawn
    obtain ⟨origin, inside, rfl⟩ := List.mem_map.mp (perm.mem_iff.mp member)
    have isAdded := unmerged.mem_uniqueBy_iff.mp inside
    by_cases opposite : origin.flip ∈ kept given
    · rw [normalEdge_of_mem opposite]
    · rw [normalEdge_of_not_mem opposite, unmerged.drawn origin isAdded] at hidden
      exact absurd hidden (by simp)

/-- Edges of two kinds lead both ways between two ids, one of them twice, and a third kind one way
only. -/
theorem drawsConnections_normalize_kinds :
    let given : List Edge :=
      [⟨"c", "b", .link, true⟩, ⟨"a", "b", .link, true⟩, ⟨"b", "a", .link, true⟩,
        ⟨"a", "b", .link, true⟩, ⟨"b", "a", .flow, true⟩, ⟨"a", "b", .flow, true⟩,
        ⟨"a", "b", .hierarchy, true⟩, ⟨"", "a", .link, true⟩]
    (∀ edge ∈ given, edge.source ≠ edge.destination) ∧ (∀ edge ∈ given, edge.kind ≠ .bilink) ∧
      (addEdges {} given).normalize.edges.count ⟨"b", "a", .bilink, true⟩ = 2 ∧
      (addEdges {} given).normalize.edges.count ⟨"a", "b", .bilink, false⟩ = 2 ∧
      (addEdges {} given).normalize.edges.count ⟨"a", "b", .hierarchy, true⟩ = 1 ∧
      (addEdges {} given).normalize.IsMirrored := by
  intro given
  have noLoop : ∀ edge ∈ given, edge.source ≠ edge.destination := by decide
  have notBilink : ∀ edge ∈ given, edge.kind ≠ .bilink := by decide
  obtain ⟨-, draws, mirrored⟩ := drawsConnections_normalize noLoop notBilink
  have pair : (addEdges {} given).normalize.edges.count ⟨"b", "a", .bilink, true⟩ = 2 :=
    (draws.count_pair "b" "a").trans (by decide +kernel)
  refine ⟨noLoop, notBilink, pair, (draws.count_opposite "a" "b").trans pair, ?_, mirrored⟩
  exact (draws.count_single "a" "b" .hierarchy (by decide)).trans (by decide +kernel)

end LinkGraph

end OutlineDiagram
