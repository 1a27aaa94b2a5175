/-
This file proves that written links survive compilation. The edges that a graph holds
before it is brought into normal form are links between what stands for the written
ends, and implied edges, which never meet their opposite. So the normal form draws
every such pair of ends once, and as half of a pair just when its opposite is there.
-/

import OutlineDiagram.Proofs.Graph.Compiled
import OutlineDiagram.Proofs.Links.Normal

namespace OutlineDiagram

/-! ### Links that are drawn -/

/-- The ids at both ends of an edge. -/
def Edge.ends (edge : Edge) : String × String := (edge.source, edge.destination)

/-- An edge comes from links that were written. -/
def Edge.isLink (edge : Edge) : Bool := edge.kind == .link || edge.kind == .bilink

/-- The edges of a graph that come from links. -/
def Graph.linkEdges (graph : Graph) : List Edge := graph.links.edges.filter Edge.isLink

/-- Edges draw the pairs that are joined: each pair once, and two opposite pairs as one edge with
two heads. -/
structure DrawsOnce (joined : String → String → Prop) (edges : List Edge) : Prop where
  /-- No pair is there twice. -/
  nodup : (edges.map Edge.ends).Nodup
  /-- The pairs that are there are those that are joined. -/
  mem_ends_iff : ∀ source destination,
    (source, destination) ∈ edges.map Edge.ends ↔ joined source destination
  /-- A pair whose opposite is there is half of an edge with two heads, and any other is a link. -/
  kind_eq : ∀ edge ∈ edges,
    edge.kind = if edge.flip.ends ∈ edges.map Edge.ends then .bilink else .link
  /-- Links are drawn. -/
  drawn : ∀ edge ∈ edges, edge.kind = .link → edge.mustRender = true
  /-- Of two opposite pairs one is drawn. -/
  oneDrawn : ∀ edge ∈ edges, ∀ other ∈ edges,
    other.ends = edge.flip.ends → other.mustRender = !edge.mustRender

/-- Edges hold the pairs that are joined as links, next to edges that are implied. -/
structure HoldsLinks (joined : String → String → Prop) (ids : List String)
    (paths : List (List Node × Node)) (added : List Edge) : Prop where
  /-- An edge is a link of a joined pair or implied. -/
  written : ∀ edge ∈ added,
    edge.kind = .link ∧ edge.mustRender = true ∧ joined edge.source edge.destination ∨
      IsImplied ids paths edge
  /-- A joined pair has its link. -/
  held : ∀ source destination, joined source destination →
    ⟨source, destination, .link, true⟩ ∈ added
  /-- No id is joined to itself. -/
  apart : ∀ source destination, joined source destination → source ≠ destination
  /-- No two nodes of the final forest share an id. -/
  idsDistinct : ids.Nodup
  /-- No two nodes of the full forest share an id. -/
  pathsDistinct : (paths.map fun path => path.2.id).Nodup

theorem ends_normalEdge (added : List Edge) (order : List String) (edge : Edge) :
    (LinkGraph.normalEdge added order edge).ends = edge.ends := by
  rw [LinkGraph.normalEdge]
  split <;> rfl

namespace HoldsLinks

variable {joined : String → String → Prop} {ids order : List String}
  {paths : List (List Node × Node)} {added : List Edge} {edge : Edge}
  {source destination : String} (holdsLinks : HoldsLinks joined ids paths added)

include holdsLinks

theorem noLoop : ∀ edge ∈ added, edge.source ≠ edge.destination := by
  intro edge member
  rcases holdsLinks.written edge member with ⟨-, -, isJoined⟩ | implied
  · exact holdsLinks.apart _ _ isJoined
  · exact implied.ne holdsLinks.idsDistinct holdsLinks.pathsDistinct

theorem notBilink : ∀ edge ∈ added, edge.kind ≠ .bilink := by
  intro edge member
  rcases holdsLinks.written edge member with ⟨isLink, -⟩ | implied
  · rw [isLink]
    simp
  · exact implied.not_link.2

theorem drawn : ∀ edge ∈ added, edge.mustRender = true := by
  intro edge member
  rcases holdsLinks.written edge member with ⟨-, isDrawn, -⟩ | implied
  · exact isDrawn
  · exact implied.mustRender

theorem eq_of_kind (member : edge ∈ added) (isLink : edge.kind = .link) :
    joined edge.source edge.destination ∧ edge = ⟨edge.source, edge.destination, .link, true⟩ := by
  rcases holdsLinks.written edge member with ⟨-, isDrawn, isJoined⟩ | implied
  · refine ⟨isJoined, ?_⟩
    rw [← isLink, ← isDrawn]
  · exact absurd isLink implied.not_link.1

theorem mem_iff : ⟨source, destination, .link, true⟩ ∈ added ↔ joined source destination :=
  ⟨fun member => (holdsLinks.eq_of_kind member rfl).1, holdsLinks.held source destination⟩

open Classical in
/-- The link of a joined pair becomes half of a pair when the opposite ids are joined as well. -/
theorem normalEdge_link :
    LinkGraph.normalEdge added order ⟨source, destination, .link, true⟩ =
      if joined destination source then
        ⟨source, destination, .bilink, order.idxOf source < order.idxOf destination⟩
      else ⟨source, destination, .link, true⟩ := by
  have opposite : Edge.flip ⟨source, destination, .link, true⟩ ∈ added ↔
      joined destination source := holdsLinks.mem_iff
  rw [LinkGraph.normalEdge]
  exact if_congr opposite rfl rfl

theorem flip_not_mem_of_implied (implied : IsImplied ids paths edge) : edge.flip ∉ added := by
  intro member
  rcases holdsLinks.written _ member with ⟨isLink, -⟩ | opposite
  · exact implied.not_link.1 isLink
  · exact implied.asymm holdsLinks.idsDistinct holdsLinks.pathsDistinct opposite

/-- The ids that edges join both ways are those that are joined both ways by links. -/
theorem forall_flip_mem_iff (holdsFor : String → String → Prop) :
    (∀ edge ∈ added, edge.flip ∈ added → holdsFor edge.source edge.destination) ↔
      ∀ source destination, joined source destination → joined destination source →
        holdsFor source destination := by
  constructor
  · intro each source destination forth back
    exact each _ (holdsLinks.mem_iff.mpr forth) (holdsLinks.mem_iff.mpr back)
  · intro each edge member opposite
    rcases holdsLinks.written edge member with ⟨isLink, -, isJoined⟩ | implied
    · exact each _ _ isJoined (holdsLinks.eq_of_kind opposite isLink).1
    · exact absurd opposite (holdsLinks.flip_not_mem_of_implied implied)

/-- An implied edge stays as it is. -/
theorem normalEdge_of_implied (implied : IsImplied ids paths edge) :
    LinkGraph.normalEdge added order edge = edge :=
  if_neg (holdsLinks.flip_not_mem_of_implied implied)

theorem isLink_normalEdge (member : edge ∈ added) :
    (LinkGraph.normalEdge added order edge).isLink = (edge.kind == .link) := by
  rcases holdsLinks.written edge member with ⟨isLink, -⟩ | implied
  · rw [isLink, beq_self_eq_true, LinkGraph.normalEdge]
    split
    · rfl
    · rw [Edge.isLink, isLink]
      rfl
  · rw [holdsLinks.normalEdge_of_implied implied, Edge.isLink,
      beq_eq_false_iff_ne.mpr implied.not_link.1, beq_eq_false_iff_ne.mpr implied.not_link.2]
    rfl

/-- The links of the normal form are those that were held, each once. -/
theorem filter_isLink_perm {links : LinkGraph} (holds : links.Holds added) :
    (links.normalize.edges.filter Edge.isLink).Perm
      (((uniqueBy Edge.sameAs added).filter fun edge => edge.kind == .link).map
        (LinkGraph.normalEdge added links.nodeIds)) := by
  have normal := LinkGraph.edges_normalize_perm holds holdsLinks.noLoop holdsLinks.notBilink
    holdsLinks.drawn
  refine (normal.filter Edge.isLink).trans (List.Perm.of_eq ?_)
  rw [List.filter_map]
  refine congrArg (List.map _) (List.filter_congr fun edge member => ?_)
  exact holdsLinks.isLink_normalEdge (mem_of_mem_uniqueBy member)

theorem mem_filter_isLink_iff {links : LinkGraph} (holds : links.Holds added) :
    edge ∈ links.normalize.edges.filter Edge.isLink ↔ ∃ source destination,
      joined source destination ∧
        edge = LinkGraph.normalEdge added links.nodeIds ⟨source, destination, .link, true⟩ := by
  rw [(holdsLinks.filter_isLink_perm holds).mem_iff, List.mem_map]
  constructor
  · rintro ⟨origin, found, rfl⟩
    obtain ⟨inside, isLink⟩ := List.mem_filter.mp found
    obtain ⟨isJoined, same⟩ := holdsLinks.eq_of_kind (mem_of_mem_uniqueBy inside) (eq_of_beq isLink)
    exact ⟨_, _, isJoined, congrArg _ same⟩
  · rintro ⟨source, destination, isJoined, rfl⟩
    have inside := holdsLinks.mem_iff.mpr isJoined
    exact ⟨_, List.mem_filter.mpr ⟨(Edge.mem_uniqueBy_sameAs_iff holdsLinks.drawn).mpr inside, rfl⟩,
      rfl⟩

theorem mem_ends_iff {links : LinkGraph} (holds : links.Holds added) :
    (source, destination) ∈ (links.normalize.edges.filter Edge.isLink).map Edge.ends ↔
      joined source destination := by
  rw [List.mem_map]
  constructor
  · rintro ⟨edge, member, same⟩
    obtain ⟨first, last, isJoined, rfl⟩ := (holdsLinks.mem_filter_isLink_iff holds).mp member
    rw [ends_normalEdge] at same
    obtain ⟨rfl, rfl⟩ := Prod.mk.inj same
    exact isJoined
  · intro isJoined
    exact ⟨_, (holdsLinks.mem_filter_isLink_iff holds).mpr ⟨_, _, isJoined, rfl⟩,
      ends_normalEdge _ _ _⟩

theorem nodup_ends {links : LinkGraph} (holds : links.Holds added) :
    ((links.normalize.edges.filter Edge.isLink).map Edge.ends).Nodup := by
  have perm := (holdsLinks.filter_isLink_perm holds).map Edge.ends
  rw [List.map_map] at perm
  refine perm.nodup_iff.mpr (List.Nodup.map_on ?_ ((nodup_uniqueBy Edge.sameAs_refl _).filter _))
  intro one oneMember other otherMember same
  obtain ⟨oneInside, oneLink⟩ := List.mem_filter.mp oneMember
  obtain ⟨otherInside, otherLink⟩ := List.mem_filter.mp otherMember
  rw [Function.comp_apply, Function.comp_apply, ends_normalEdge, ends_normalEdge] at same
  obtain ⟨source, destination⟩ := Prod.mk.inj same
  rw [(holdsLinks.eq_of_kind (mem_of_mem_uniqueBy oneInside) (eq_of_beq oneLink)).2,
    (holdsLinks.eq_of_kind (mem_of_mem_uniqueBy otherInside) (eq_of_beq otherLink)).2, source,
    destination]

/-- A link of the normal form is half of a pair, drawn if its source is listed first, or a link
whose opposite is not joined. -/
theorem cases_of_mem {links : LinkGraph} (holds : links.Holds added)
    (member : edge ∈ links.normalize.edges.filter Edge.isLink) :
    joined edge.source edge.destination ∧
      (joined edge.destination edge.source ∧ edge.kind = .bilink ∧
          edge.mustRender =
            decide (links.nodeIds.idxOf edge.source < links.nodeIds.idxOf edge.destination) ∨
        ¬ joined edge.destination edge.source ∧ edge.kind = .link ∧ edge.mustRender = true) := by
  obtain ⟨source, destination, isJoined, rfl⟩ :=
    (holdsLinks.mem_filter_isLink_iff holds).mp member
  rw [holdsLinks.normalEdge_link]
  by_cases opposite : joined destination source
  · rw [if_pos opposite]
    exact ⟨isJoined, Or.inl ⟨opposite, rfl, rfl⟩⟩
  · rw [if_neg opposite]
    exact ⟨isJoined, Or.inr ⟨opposite, rfl, rfl⟩⟩

/-- Of two joined ids one is listed first. -/
theorem decide_idxOf_lt {links : LinkGraph} (holds : links.Holds added)
    (isJoined : joined source destination) :
    decide (links.nodeIds.idxOf destination < links.nodeIds.idxOf source) =
      !decide (links.nodeIds.idxOf source < links.nodeIds.idxOf destination) := by
  have touched := (holds.touched source).mpr
    ⟨_, holdsLinks.held _ _ isJoined, Or.inl rfl⟩
  have different : links.nodeIds.idxOf source ≠ links.nodeIds.idxOf destination := fun same =>
    holdsLinks.apart _ _ isJoined ((List.idxOf_inj touched).mp same)
  rw [← decide_not, decide_eq_decide]
  omega

/-- The normal form draws each joined pair once. -/
theorem drawsOnce_normalize {links : LinkGraph} (holds : links.Holds added) :
    DrawsOnce joined (links.normalize.edges.filter Edge.isLink) := by
  have pairs : ∀ first last,
      (first, last) ∈ (links.normalize.edges.filter Edge.isLink).map Edge.ends ↔
        joined first last := fun _ _ => holdsLinks.mem_ends_iff holds
  refine ⟨holdsLinks.nodup_ends holds, pairs, fun edge member => ?_, fun edge member isLink => ?_,
    fun edge member other otherMember opposite => ?_⟩
  · have there : edge.flip.ends ∈ (links.normalize.edges.filter Edge.isLink).map Edge.ends ↔
        joined edge.destination edge.source := pairs _ _
    rcases (holdsLinks.cases_of_mem holds member).2 with ⟨back, kind, -⟩ | ⟨noBack, kind, -⟩
    · rw [if_pos (there.mpr back), kind]
    · rw [if_neg (fun found => noBack (there.mp found)), kind]
  · rcases (holdsLinks.cases_of_mem holds member).2 with ⟨-, kind, -⟩ | ⟨-, -, isDrawn⟩
    · exact absurd (isLink.symm.trans kind) (by simp)
    · exact isDrawn
  · obtain ⟨isSource, isDestination⟩ := Prod.mk.inj opposite
    obtain ⟨forth, shape⟩ := holdsLinks.cases_of_mem holds member
    obtain ⟨back, otherShape⟩ := holdsLinks.cases_of_mem holds otherMember
    dsimp only [Edge.flip] at isSource isDestination
    rw [isSource, isDestination] at back otherShape
    have isDrawn := (shape.resolve_right fun alone => alone.1 back).2.2
    have otherIsDrawn := (otherShape.resolve_right fun alone => alone.1 forth).2.2
    rw [isDrawn, otherIsDrawn]
    exact holdsLinks.decide_idxOf_lt holds forth

end HoldsLinks

/-! ### Compiled outlines -/

section Compiled

variable {bullets : List Line} (valid : ∀ line ∈ bullets, line.isBullet = true)
  (distinct : (bullets.map Line.id).Nodup)

include valid distinct

theorem holdsLinks_fullEdges :
    HoldsLinks (Carries false bullets) (fullGraph bullets).nodeIds (fullGraph bullets).forest.paths
      (fullEdges bullets) where
  written edge member := by
    rcases mem_fullEdges valid distinct member with ⟨kind, isDrawn, links⟩ | implied
    · obtain ⟨bullet, -, authors⟩ := links.1
      exact Or.inl ⟨kind, isDrawn, authors.1, _, _, links, rfl, rfl⟩
    · exact Or.inr implied
  held source destination carried := by
    obtain ⟨-, first, last, links, fromFirst, fromLast⟩ := carried
    obtain rfl : first = source := Option.some.inj fromFirst
    obtain rfl : last = destination := Option.some.inj fromLast
    exact List.mem_append_left _ (mem_kept_authoredLinks_iff.mpr ⟨links, rfl, rfl⟩)
  apart _ _ carried := carried.1
  idsDistinct := nodup_nodeIds_fullGraph valid distinct
  pathsDistinct := nodup_paths_fullGraph valid distinct

theorem holdsLinks_prunedEdges (named : ∀ bullet ∈ bullets, bullet.id ≠ "") :
    HoldsLinks (Carries true bullets) (prunedGraph bullets).nodeIds
      (fullGraph bullets).forest.paths (prunedEdges bullets) where
  written _ member := mem_prunedEdges valid distinct member
  held _ _ carried := mem_prunedEdges_of_carries valid distinct named carried
  apart _ _ carried := carried.1
  idsDistinct := nodup_nodeIds_prunedGraph valid distinct
  pathsDistinct := nodup_paths_fullGraph valid distinct

end Compiled

namespace Graph

theorem linkEdges_normalize (graph : Graph) :
    graph.normalize.linkEdges = graph.links.normalize.edges.filter Edge.isLink := rfl

/-- Where no two bullets share an id and none has the empty one, the links of a compiled outline
are the written ones between names, each joining what stands for its ends, and each drawn once. -/
theorem drawsOnce_linkEdges_compile {lines : List Line} {built : Graph}
    (succeeds : build lines = .ok built) (distinct : ((bulletsOf lines).map Line.id).Nodup)
    (named : ∀ bullet ∈ bulletsOf lines, bullet.id ≠ "") (prune : Bool) :
    ∃ graph, compile prune lines = .ok graph ∧
      DrawsOnce (Carries prune (bulletsOf lines)) graph.linkEdges := by
  have valid : ∀ line ∈ bulletsOf lines, line.isBullet = true :=
    fun line member => isBullet_of_mem_bulletsOf member
  refine ⟨_, compile_eq_ok (firstBadIndent?_of_build succeeds) prune, ?_⟩
  rw [linkEdges_normalize]
  cases prune with
  | false =>
    exact (holdsLinks_fullEdges valid distinct).drawsOnce_normalize (holds_fullEdges _)
  | true =>
    have holds := holds_prunedEdges (bulletsOf lines)
    rw [prunedGraph] at holds
    exact (holdsLinks_prunedEdges valid distinct named).drawsOnce_normalize holds

/-- Links to and from a folded part become one edge with two heads. -/
theorem drawsOnce_linkEdges_compile_fold :
    let lines : List Line :=
      [{ depth := 0, explicitId := some "a", visibility := .fold },
        { depth := 1, explicitId := some "b", idsOut := ["c"] },
        { depth := 0, explicitId := some "c", idsOut := ["b", "a"] }]
    (∃ built, build lines = .ok built) ∧ ((bulletsOf lines).map Line.id).Nodup ∧
      (∀ bullet ∈ bulletsOf lines, bullet.id ≠ "") ∧
      ∃ graph, compile true lines = .ok graph ∧
        ("a", "c") ∈ graph.linkEdges.map Edge.ends ∧ (graph.linkEdges.map Edge.ends).Nodup := by
  intro lines
  have succeeds : build lines = .ok (ofBullets lines) := by decide +kernel
  have distinct : ((bulletsOf lines).map Line.id).Nodup := by decide +kernel
  have named : ∀ bullet ∈ bulletsOf lines, bullet.id ≠ "" := by decide +kernel
  obtain ⟨graph, compiled, drawn⟩ := drawsOnce_linkEdges_compile succeeds distinct named true
  refine ⟨⟨_, succeeds⟩, distinct, named, graph, compiled, ?_, drawn.nodup⟩
  refine (drawn.mem_ends_iff "a" "c").mpr ⟨by decide, "b", "c", ⟨?_, by decide, by decide⟩, ?_, ?_⟩
  · exact ⟨{ depth := 1, explicitId := some "b", idsOut := ["c"] }, by decide +kernel, by decide,
      Or.inr (by decide)⟩
  · decide +kernel
  · decide +kernel

/-- A link to the empty id is written, and is not drawn. -/
theorem linkEdges_compile_empty :
    let lines : List Line := [{ depth := 0, explicitId := some "a", idsOut := [""] }]
    build lines = .ok (ofBullets (bulletsOf lines)) ∧ ((bulletsOf lines).map Line.id).Nodup ∧
      (∀ bullet ∈ bulletsOf lines, bullet.id ≠ "") ∧
      (∃ bullet ∈ bulletsOf lines, bullet.Authors "a" "") ∧
      representative? false (bulletsOf lines) "a" = some "a" ∧
      representative? false (bulletsOf lines) "" = some "" ∧
      ∃ graph, compile false lines = .ok graph ∧ ("a", "") ∉ graph.linkEdges.map Edge.ends := by
  intro lines
  refine ⟨by decide +kernel, by decide +kernel, by decide +kernel, ?_, rfl, rfl, ?_⟩
  · exact ⟨{ depth := 0, explicitId := some "a", idsOut := [""] }, by decide +kernel, by decide,
      Or.inr (by decide)⟩
  · exact ⟨_, compile_eq_ok (by decide +kernel) false, by decide +kernel⟩

end Graph

end OutlineDiagram
