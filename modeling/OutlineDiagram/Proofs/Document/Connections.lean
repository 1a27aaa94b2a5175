/-
This file proves that a document and its graph agree on what is linked. The document
looks for the bullets that a bullet names and for those that name it; the graph holds
an edge for each link. Where no two bullets share an id, one bullet is found from
another one exactly if the graph has a link between their ids, in either direction.
-/

import OutlineDiagram.Proofs.Document.Named
import OutlineDiagram.Proofs.Document.Places
import OutlineDiagram.Proofs.Graph.Compiled
import OutlineDiagram.Proofs.Links.Normal

namespace OutlineDiagram

/-! ### Placeholders -/

/-- A supply has no empty placeholder. -/
def IdSupply.NamesBullets (supply : IdSupply) : Prop :=
  ∀ placeholders compacts, supply.placeholderAt placeholders compacts ≠ ""

theorem IdSupply.namesBullets_ofHex (hexAt : Nat → String) (patience : Nat) :
    (ofHex hexAt patience).NamesBullets := by
  intro placeholders compacts same
  have letters := congrArg String.toList same
  simp [ofHex] at letters

namespace Line

theorem placeholderAt_readNext (unit index : Int) (text : String) (supply : IdSupply) :
    (readNext unit index text supply).2.placeholderAt = supply.placeholderAt := by
  rw [readNext]
  split <;> rfl

theorem placeholderId_readNext_ne_empty {unit index : Int} {text : String} {supply : IdSupply}
    (names : supply.NamesBullets)
    (bullet : (readNext unit index text supply).1.isBullet = true) :
    (readNext unit index text supply).1.placeholderId ≠ "" := by
  rw [readNext] at bullet ⊢
  split at bullet
  · next isShape =>
    obtain ⟨content, shape⟩ := exists_lineShape_of_isBullet bullet
    rw [if_pos isShape]
    simp only [read, shape]
    exact names supply.placeholders supply.compacts
  · next noShape =>
    obtain ⟨content, shape⟩ := exists_lineShape_of_isBullet bullet
    exact absurd (by rw [hasBulletShape, shape]) noShape

end Line

namespace Document

theorem placeholderId_ne_empty_of_mem_readEntries {unit index : Int} {texts : List String}
    {supply : IdSupply} (names : supply.NamesBullets) {line : Line}
    (member : line ∈ (readEntries unit index texts supply).1.filterMap Entry.line?)
    (bullet : line.isBullet = true) : line.placeholderId ≠ "" := by
  induction texts generalizing index supply with
  | nil => exact absurd member List.not_mem_nil
  | cons text rest inductionHypothesis =>
    obtain ⟨entry, inside, isLine⟩ := List.mem_filterMap.mp member
    rcases List.mem_cons.mp inside with rfl | later
    · rw [readEntry] at isLine
      split at isLine
      · exact absurd isLine (by simp [Entry.line?])
      · exact absurd isLine (by simp [Entry.line?])
      · obtain rfl := Option.some.inj isLine
        exact Line.placeholderId_readNext_ne_empty names bullet
    · have further : (readEntry unit index text supply).2.NamesBullets := by
        have same : (readEntry unit index text supply).2.placeholderAt = supply.placeholderAt := by
          rw [readEntry]
          split
          · rfl
          · rfl
          · exact Line.placeholderAt_readNext unit index text supply
        rw [IdSupply.NamesBullets, same]
        exact names
      exact inductionHypothesis further (List.mem_filterMap.mpr ⟨entry, later, isLine⟩)

/-- An edited line was there before, with other metadata at most. -/
theorem EditedFrom.exists_of_mem_lines {later first : Document} (edited : later.EditedFrom first)
    {line : Line} (member : line ∈ later.lines) :
    ∃ before ∈ first.lines, line.withoutMetadata = before.withoutMetadata := by
  have each := edited.entries
  rw [lines] at member ⊢
  generalize later.entries = changed, first.entries = read at each member
  induction each with
  | nil => exact absurd member List.not_mem_nil
  | @cons now before _ _ step _ inductionHypothesis =>
    obtain ⟨entry, inside, isLine⟩ := List.mem_filterMap.mp member
    rcases List.mem_cons.mp inside with rfl | further
    · cases step with
      | kept => exact ⟨line, List.mem_filterMap.mpr ⟨_, List.mem_cons_self, isLine⟩, rfl⟩
      | @changed _ first _ frame _ =>
        obtain rfl := Option.some.inj isLine
        exact ⟨first, List.mem_filterMap.mpr ⟨_, List.mem_cons_self, rfl⟩, frame⟩
    · obtain ⟨before, found, frame⟩ :=
        inductionHypothesis (List.mem_filterMap.mpr ⟨entry, further, isLine⟩)
      obtain ⟨source, listed, isBefore⟩ := List.mem_filterMap.mp found
      exact ⟨before, List.mem_filterMap.mpr ⟨source, List.mem_cons_of_mem _ listed, isBefore⟩, frame⟩

/-- In a session with a supply that has no empty placeholder, no bullet goes by the empty id. -/
theorem id_ne_empty_of_mem_afterAll {unit : Int} {supply : IdSupply} {text : String}
    {edits : List Edit} (names : supply.NamesBullets) {bullet : Line}
    (member : bullet ∈ ((ofText unit supply text).afterAll edits).bullets) : bullet.id ≠ "" := by
  obtain ⟨isLine, isBullet⟩ := List.mem_filter.mp member
  obtain ⟨before, wasLine, frame⟩ :=
    (editedFrom_afterAll (ofText unit supply text) edits).exists_of_mem_lines isLine
  have sameBullet := congrArg Line.isBullet frame
  have samePlaceholder := congrArg Line.placeholderId frame
  rcases bullet.id_cases with own | ⟨-, same⟩
  · exact Line.ownId?_ne_empty own
  · rw [same]
    intro empty
    exact placeholderId_ne_empty_of_mem_readEntries names wasLine (sameBullet.symm.trans isBullet)
      (samePlaceholder.symm.trans empty)

/-! ### Connections -/

variable {document : Document}

theorem mentions_iff {line : Line} {id : String} : mentions line id = true ↔ id ∈ line.linkIds := by
  rw [mentions, Bool.or_eq_true, List.contains_iff_mem, List.contains_iff_mem, ← List.mem_append]
  rfl

/-- A bullet is found by its id where no two share one. -/
theorem findById?_eq_some_iff (distinct : (document.bullets.map Line.id).Nodup) {id : String}
    {other : Line} :
    document.findById? id = some other ↔ other ∈ document.bullets ∧ other.id = id := by
  rw [findById?]
  constructor
  · intro found
    have passes := List.find?_some found
    exact ⟨List.mem_reverse.mp (List.mem_of_find?_eq_some found), eq_of_beq passes⟩
  · rintro ⟨member, rfl⟩
    refine find?_eq_some_of_nodup Line.id ?_ (List.mem_reverse.mpr member)
    rw [List.map_reverse]
    exact List.nodup_reverse.mpr distinct

theorem mem_named_or_naming {bullet other : Line}
    (listed : other ∈ bullet.linkIds.filterMap document.findById? ++
      document.bullets.filter fun other => mentions other bullet.id) : other ∈ document.bullets := by
  rcases List.mem_append.mp listed with named | naming
  · obtain ⟨id, -, found⟩ := List.mem_filterMap.mp named
    exact List.mem_reverse.mp (List.mem_of_find?_eq_some found)
  · exact (List.mem_filter.mp naming).1

theorem mem_bullets_of_mem_connections {bullet other : Line}
    (member : other ∈ document.connections bullet) : other ∈ document.bullets :=
  mem_named_or_naming (List.mem_filter.mp (mem_of_mem_uniqueBy member)).1

/-- A bullet is found from another one if one of them names the other. -/
theorem mem_connections_iff (placed : document.IsPlaced)
    (distinct : (document.bullets.map Line.id).Nodup) {bullet other : Line}
    (otherMember : other ∈ document.bullets) (different : other.index ≠ bullet.index) :
    other ∈ document.connections bullet ↔
      other.id ∈ bullet.linkIds ∨ bullet.id ∈ other.linkIds := by
  have exact : ∀ first ∈ (bullet.linkIds.filterMap document.findById? ++
      document.bullets.filter fun other => mentions other bullet.id).filter fun other =>
        other.index != bullet.index, first ∈ document.bullets := fun first listed =>
    mem_named_or_naming (List.mem_filter.mp listed).1
  rw [connections, mem_uniqueBy_iff fun first listed second secondListed same =>
      placed.bullet_unique (exact first listed) (exact second secondListed) (eq_of_beq same),
    List.mem_filter, and_iff_left (bne_iff_ne.mpr different), List.mem_append, List.mem_filterMap,
    List.mem_filter, and_iff_right otherMember, mentions_iff]
  refine or_congr_left ⟨?_, fun named => ?_⟩
  · rintro ⟨id, named, found⟩
    rwa [((findById?_eq_some_iff distinct).mp found).2]
  · exact ⟨_, named, (findById?_eq_some_iff distinct).mpr ⟨otherMember, rfl⟩⟩

end Document

/-! ### Links of the graph -/

/-- An edge joins two ids, in one direction or the other. -/
def Edge.Joins (edge : Edge) (one other : String) : Prop :=
  edge.source = one ∧ edge.destination = other ∨ edge.source = other ∧ edge.destination = one

theorem exists_joins_iff {bullets : List Line} {one other : String} :
    (∃ edge ∈ (Graph.ofBullets bullets).links.edgesOf .link, edge.Joins one other) ↔
      Links bullets one other ∨ Links bullets other one := by
  have held : ∀ edge, edge ∈ (Graph.ofBullets bullets).links.edgesOf .link ↔
      Links bullets edge.source edge.destination ∧ edge.kind = .link ∧ edge.mustRender = true := by
    intro edge
    have perm := (LinkGraph.holds_addEdges (bullets.flatMap authoredLinks)).edges_perm
    rw [LinkGraph.edgesOf, List.mem_filter, beq_iff_eq, Graph.ofBullets, perm.mem_iff,
      mem_kept_authoredLinks_iff]
    exact and_iff_left_of_imp fun link => link.2.1
  constructor
  · rintro ⟨edge, member, ⟨rfl, rfl⟩ | ⟨rfl, rfl⟩⟩
    · exact Or.inl ((held edge).mp member).1
    · exact Or.inr ((held edge).mp member).1
  · rintro (links | links)
    · exact ⟨⟨one, other, .link, true⟩, (held _).mpr ⟨links, rfl, rfl⟩, Or.inl ⟨rfl, rfl⟩⟩
    · exact ⟨⟨other, one, .link, true⟩, (held _).mpr ⟨links, rfl, rfl⟩, Or.inr ⟨rfl, rfl⟩⟩

/-- Where no two bullets share an id, a link between two of them is written at one of the two. -/
theorem links_iff {bullets : List Line} (distinct : (bullets.map Line.id).Nodup)
    {source destination : Line} (sourceMember : source ∈ bullets)
    (destinationMember : destination ∈ bullets) (sourceNamed : source.id ≠ "")
    (destinationNamed : destination.id ≠ "") (different : source ≠ destination) :
    Links bullets source.id destination.id ↔
      source.id ∈ destination.idsIn ∨ destination.id ∈ source.idsOut := by
  have apart : source.id ≠ destination.id := fun same =>
    different (List.inj_on_of_nodup_map distinct sourceMember destinationMember same)
  rw [Links, and_iff_left ⟨sourceNamed, destinationNamed⟩]
  constructor
  · rintro ⟨bullet, member, -, ⟨inside, same⟩ | ⟨same, inside⟩⟩
    · obtain rfl := List.inj_on_of_nodup_map distinct destinationMember member same
      exact Or.inl inside
    · obtain rfl := List.inj_on_of_nodup_map distinct sourceMember member same
      exact Or.inr inside
  · rintro (inside | inside)
    · exact ⟨destination, destinationMember, apart, Or.inl ⟨inside, rfl⟩⟩
    · exact ⟨source, sourceMember, apart, Or.inr ⟨rfl, inside⟩⟩

namespace Document

/-- In every session, no bullet is found from a bullet twice, and none from itself. Where the outline
is well indented and no two bullets share an id, each of two bullets is found from the other if one
of them is, and that is so exactly if the graph has a link between their ids in either direction,
unless one of them goes by the empty id. No bullet does if no placeholder of the supply is empty. -/
theorem mem_connections_afterAll_iff (supply : IdSupply) (unit : Int) (text : String)
    (edits : List Edit) :
    let document := (ofText unit supply text).afterAll edits
    (∀ bullet, (document.connections bullet).Nodup ∧ bullet ∉ document.connections bullet) ∧
      (firstBadIndent? 0 document.bullets = none → (document.bullets.map Line.id).Nodup →
        ∃ graph, Graph.build document.lines = .ok graph ∧
          ∀ bullet ∈ document.bullets, ∀ other ∈ document.bullets, bullet ≠ other →
            (bullet.id ≠ "" → other.id ≠ "" → (other ∈ document.connections bullet ↔
              ∃ edge ∈ graph.links.edgesOf .link, edge.Joins bullet.id other.id)) ∧
            (other ∈ document.connections bullet ↔ bullet ∈ document.connections other)) ∧
      (supply.NamesBullets → ∀ bullet ∈ document.bullets, bullet.id ≠ "") := by
  intro document
  have placed : document.IsPlaced := isPlaced_afterAll unit supply text edits
  refine ⟨fun bullet => ⟨nodup_uniqueBy (fun line => beq_self_eq_true line.index) _, fun found => ?_⟩,
    fun legal distinct => ⟨_, Graph.build_eq_ok legal, ?_⟩,
    fun names bullet member => id_ne_empty_of_mem_afterAll names member⟩
  · have other := (List.mem_filter.mp (mem_of_mem_uniqueBy found)).2
    exact bne_iff_ne.mp other rfl
  · intro bullet member other otherMember different
    have apart : other.index ≠ bullet.index := fun same =>
      different (placed.bullet_unique member otherMember same.symm)
    have forth := mem_connections_iff placed distinct otherMember apart
    have back := mem_connections_iff placed distinct member apart.symm
    refine ⟨fun named otherNamed => ?_, forth.trans (or_comm.trans back.symm)⟩
    rw [forth, exists_joins_iff]
    change _ ↔ Links document.bullets _ _ ∨ Links document.bullets _ _
    rw [links_iff distinct member otherMember named otherNamed different,
      links_iff distinct otherMember member otherNamed named different.symm, Metadata.linkIds,
      Metadata.linkIds, List.mem_append, List.mem_append]
    tauto

/-- A bullet that goes by a placeholder names the one above it and an id that no bullet has. It is
found from the one above it though that one names nobody. -/
theorem mem_connections_afterAll_iff_placeholder :
    let supply := IdSupply.ofListedHex []
    let document := (ofText 2 supply "- A // a
  - B // >a <b
- C // c <a
").afterAll [.line .hide 3]
    supply.NamesBullets ∧ firstBadIndent? 0 document.bullets = none ∧
      (document.bullets.map Line.id).Nodup ∧
      ∃ graph, Graph.build document.lines = .ok graph ∧
        ∃ bullet ∈ document.bullets, ∃ other ∈ document.bullets, bullet ≠ other ∧
          bullet.linkIds = [] ∧ other.hasPlaceholder = true ∧
          (∃ edge ∈ graph.links.edgesOf .link, edge.Joins bullet.id other.id) ∧
          bullet ∈ document.connections other := by
  intro supply document
  have names : supply.NamesBullets := IdSupply.namesBullets_ofHex _ _
  have legal : firstBadIndent? 0 document.bullets = none := by decide +kernel
  have distinct : (document.bullets.map Line.id).Nodup := by decide +kernel
  obtain ⟨-, agree, named⟩ := mem_connections_afterAll_iff supply 2 _ [.line .hide 3]
  obtain ⟨graph, built, agrees⟩ := agree legal distinct
  let bullet := document.bullets.getD 0 default
  let other := document.bullets.getD 1 default
  have member : bullet ∈ document.bullets := by decide +kernel
  have otherMember : other ∈ document.bullets := by decide +kernel
  obtain ⟨edges, symmetric⟩ := agrees bullet member other otherMember (by decide +kernel)
  have found : other ∈ document.connections bullet := by decide +kernel
  have joined := (edges (named names bullet member) (named names other otherMember)).mp found
  exact ⟨names, legal, distinct, graph, built, bullet, member, other, otherMember,
    by decide +kernel, by decide +kernel, by decide +kernel, joined, symmetric.mp found⟩

/-- A bullet that goes by an empty placeholder is found from the one that it names, but the graph has
no link at all. -/
theorem mem_connections_without_edge :
    let document := ofText 2 .numberedAfterEmpty "- A // >b
- B // b
"
    firstBadIndent? 0 document.bullets = none ∧ (document.bullets.map Line.id).Nodup ∧
      ∃ graph, Graph.build document.lines = .ok graph ∧
        ∃ bullet ∈ document.bullets, ∃ other ∈ document.bullets, bullet ≠ other ∧
          other ∈ document.connections bullet ∧ bullet ∈ document.connections other ∧
          ¬∃ edge ∈ graph.links.edgesOf .link, edge.Joins bullet.id other.id := by
  intro document
  have legal : firstBadIndent? 0 document.bullets = none := by decide +kernel
  let bullet := document.bullets.getD 0 default
  let other := document.bullets.getD 1 default
  have noEdge : (Graph.ofBullets (bulletsOf document.lines)).links.edgesOf .link = [] := by
    decide +kernel
  refine ⟨legal, by decide +kernel, _, Graph.build_eq_ok legal, bullet, by decide +kernel, other,
    by decide +kernel, by decide +kernel, by decide +kernel, by decide +kernel, ?_⟩
  rintro ⟨edge, member, -⟩
  rw [noEdge] at member
  exact List.not_mem_nil member

end Document

end OutlineDiagram
