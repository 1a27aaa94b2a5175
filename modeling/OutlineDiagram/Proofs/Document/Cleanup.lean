/-
This file proves that a cleanup of ids is complete in one pass and loses no edge. What
is dropped is decided by what was declared and named before anything is dropped. Still
no decision undoes another: an id that stays because a link names it is declared, so
the link stays as well, and a link that stays names its target, whose id then stays.
-/

import OutlineDiagram.Proofs.Document.Named

namespace OutlineDiagram

/-! ### Cleaned lines -/

namespace Line

variable (declared named : List String) (line : Line)

theorem withoutIds_cleaned : (line.cleaned declared named).withoutIds = line.withoutIds := rfl

theorem ownId?_cleaned :
    (line.cleaned declared named).ownId? = line.ownId?.filter named.contains := by
  show Option.filter (· != "") (line.explicitId.filter fun id => id == "" || named.contains id) =
    (line.explicitId.filter (· != "")).filter named.contains
  rw [Option.filter_filter, Option.filter_filter]
  refine congrArg (Option.filter · line.explicitId) (funext fun id => ?_)
  cases empty : id == "" with
  | true => simp [eq_of_beq empty]
  | false => rw [Bool.false_or, Bool.and_comm]

theorem linkIds_cleaned :
    (line.cleaned declared named).linkIds = line.linkIds.filter declared.contains :=
  (List.filter_append ..).symm

variable {declared named line}

/-- A line is clean when its id is named and its links are declared. -/
theorem cleaned_eq_self (own : ∀ id, line.ownId? = some id → id ∈ named)
    (links : ∀ id ∈ line.linkIds, id ∈ declared) : line.cleaned declared named = line := by
  have idStays : (line.explicitId.filter fun id => id == "" || named.contains id) =
      line.explicitId := by
    cases written : line.explicitId with
    | none => rfl
    | some id =>
      refine Option.filter_some_pos ?_
      by_cases empty : id = ""
      · rw [beq_iff_eq.mpr empty, Bool.true_or]
      · have isOwn : line.ownId? = some id := by
          rw [Metadata.ownId?, written]
          exact Option.filter_some_pos (bne_iff_ne.mpr empty)
        rw [List.contains_iff_mem.mpr (own id isOwn), Bool.or_true]
  have linksStay : ∀ some : List String, (∀ id ∈ some, id ∈ line.linkIds) →
      some.filter declared.contains = some := fun some inside =>
    List.filter_eq_self.mpr fun id member => List.contains_iff_mem.mpr (links id (inside id member))
  have idsIn := linksStay line.idsIn fun _ member => List.mem_append_left _ member
  have idsOut := linksStay line.idsOut fun _ member => List.mem_append_right _ member
  rw [cleaned, idStays, idsIn, idsOut]

end Line

namespace Document

variable (document : Document)

/-! ### What bullets declare and name -/

variable {document} in
theorem mem_declaredIds_iff {id : String} :
    id ∈ document.declaredIds ↔ ∃ bullet ∈ document.bullets, bullet.ownId? = some id :=
  List.mem_filterMap

variable {document} in
theorem mem_namedIds_of_link {bullet : Line} (member : bullet ∈ document.bullets) {id : String}
    (links : id ∈ bullet.linkIds) : id ∈ document.namedIds :=
  List.mem_append_left _ (List.mem_flatMap.mpr ⟨bullet, member, links⟩)

theorem line?_cleanEntry (declared named : List String) (entry : Entry) :
    (cleanEntry declared named entry).line? = entry.line?.map fun line =>
      if line.isBullet then line.cleaned declared named else line := by
  cases entry with
  | blank text => rfl
  | script text => rfl
  | parsed line isEdited =>
    show (if line.isBullet && line.cleaned declared named != line then
      Entry.parsed (line.cleaned declared named) true else .parsed line isEdited).line? =
        some (if line.isBullet then line.cleaned declared named else line)
    cases line.isBullet with
    | false => rfl
    | true =>
      rw [Bool.true_and]
      by_cases clean : line.cleaned declared named = line
      · simp [clean, Entry.line?]
      · simp [clean, Entry.line?]

/-- A cleanup cleans each bullet by what all of them declared and named before. -/
theorem bullets_cleanupIds :
    document.cleanupIds.bullets =
      document.bullets.map (Line.cleaned document.declaredIds document.namedIds) := by
  have lines : document.cleanupIds.lines = document.lines.map fun line =>
      if line.isBullet then line.cleaned document.declaredIds document.namedIds else line := by
    show (document.entries.map _).filterMap Entry.line? = _
    rw [List.filterMap_map, Document.lines, List.map_filterMap]
    exact List.filterMap_congr fun entry _ => line?_cleanEntry _ _ entry
  have frame : ∀ line : Line, (if line.isBullet then
      line.cleaned document.declaredIds document.namedIds else line).withoutIds =
        line.withoutIds := by
    intro line
    split <;> rfl
  rw [bullets, lines, bulletsOf_map frame]
  exact List.map_congr_left fun bullet member => if_pos (isBullet_of_mem_bulletsOf member)

theorem scripts_cleanupIds : document.cleanupIds.scripts = document.scripts := by
  show ((document.entries.map _).zipIdx).filterMap _ = _
  rw [List.zipIdx_map, List.filterMap_map]
  refine List.filterMap_congr fun place _ => ?_
  obtain ⟨entry, position⟩ := place
  cases entry with
  | blank text => rfl
  | script text => rfl
  | parsed line isEdited =>
    rw [Function.comp_apply, Prod.map_apply, cleanEntry]
    cases line.isBullet && line.cleaned document.declaredIds document.namedIds != line <;> rfl

/-! ### A second cleanup -/

theorem mem_declaredIds_cleanupIds {id : String} :
    id ∈ document.cleanupIds.declaredIds ↔
      id ∈ document.declaredIds ∧ id ∈ document.namedIds := by
  rw [mem_declaredIds_iff, mem_declaredIds_iff, bullets_cleanupIds]
  constructor
  · rintro ⟨_, member, own⟩
    obtain ⟨bullet, firstMember, rfl⟩ := List.mem_map.mp member
    rw [Line.ownId?_cleaned, Option.filter_eq_some_iff] at own
    exact ⟨⟨bullet, firstMember, own.1⟩, List.contains_iff_mem.mp own.2⟩
  · rintro ⟨⟨bullet, member, own⟩, isNamed⟩
    refine ⟨_, List.mem_map_of_mem member, ?_⟩
    rw [Line.ownId?_cleaned, Option.filter_eq_some_iff]
    exact ⟨own, List.contains_iff_mem.mpr isNamed⟩

/-- What a bullet declares is named after a cleanup if it was before: a link to it stays. -/
theorem mem_namedIds_cleanupIds {id : String} (declares : id ∈ document.declaredIds)
    (named : id ∈ document.namedIds) : id ∈ document.cleanupIds.namedIds := by
  rcases List.mem_append.mp named with byLink | byScript
  · obtain ⟨bullet, member, links⟩ := List.mem_flatMap.mp byLink
    have cleaned : bullet.cleaned document.declaredIds document.namedIds ∈
        document.cleanupIds.bullets := by
      rw [bullets_cleanupIds]
      exact List.mem_map_of_mem member
    refine mem_namedIds_of_link cleaned ?_
    rw [Line.linkIds_cleaned]
    exact List.mem_filter.mpr ⟨links, List.contains_iff_mem.mpr declares⟩
  · refine List.mem_append_right _ ?_
    rw [scripts_cleanupIds]
    exact byScript

/-- After a cleanup every bullet is clean. -/
theorem cleaned_of_mem_cleanupIds {bullet : Line} (member : bullet ∈ document.cleanupIds.bullets) :
    bullet.cleaned document.cleanupIds.declaredIds document.cleanupIds.namedIds = bullet := by
  refine Line.cleaned_eq_self (fun id own => ?_) fun id link => ?_
  · obtain ⟨declares, named⟩ := document.mem_declaredIds_cleanupIds.mp
      (mem_declaredIds_iff.mpr ⟨bullet, member, own⟩)
    exact document.mem_namedIds_cleanupIds declares named
  · rw [bullets_cleanupIds] at member
    obtain ⟨first, firstMember, rfl⟩ := List.mem_map.mp member
    rw [Line.linkIds_cleaned, List.mem_filter, List.contains_iff_mem] at link
    exact document.mem_declaredIds_cleanupIds.mpr
      ⟨link.2, mem_namedIds_of_link firstMember link.1⟩

theorem cleanupIds_cleanupIds : document.cleanupIds.cleanupIds = document.cleanupIds := by
  have entries : document.cleanupIds.entries.map
      (cleanEntry document.cleanupIds.declaredIds document.cleanupIds.namedIds) =
        document.cleanupIds.entries := by
    refine (List.map_congr_left fun entry member => ?_).trans (List.map_id _)
    cases entry with
    | blank text => rfl
    | script text => rfl
    | parsed line isEdited =>
      rw [cleanEntry, id, if_neg]
      rw [Bool.and_eq_true, not_and]
      intro isBullet
      have isMember : line ∈ document.cleanupIds.bullets :=
        List.mem_filter.mpr ⟨List.mem_filterMap.mpr ⟨_, member, rfl⟩, isBullet⟩
      rw [document.cleaned_of_mem_cleanupIds isMember]
      simp
  exact congrArg (fun entries => { document.cleanupIds with entries := entries }) entries

theorem cleanupCount_cleanupIds : document.cleanupIds.cleanupCount = 0 := by
  refine List.length_eq_zero_iff.mpr (List.filter_eq_nil_iff.mpr fun bullet member => ?_)
  rw [document.cleaned_of_mem_cleanupIds member]
  simp

/-! ### The graph after a cleanup -/

/-- Some bullet goes by the id. -/
def declares (id : String) : Bool := (document.bullets.map Line.id).contains id

/-- What an id is after a cleanup: the placeholder of its bullet where it is written for one and
nothing names it, else what it was. -/
def cleanedId (id : String) : String :=
  if document.namedIds.contains id then id
  else ((document.bullets.find? fun bullet => bullet.ownId? == some id).map
    Line.placeholderId).getD id

variable {document}

theorem cleanedId_of_named {id : String} (named : id ∈ document.namedIds) :
    document.cleanedId id = id := if_pos (List.contains_iff_mem.mpr named)

theorem cleanedId_of_not_written {id : String}
    (absent : ∀ bullet ∈ document.bullets, bullet.ownId? ≠ some id) :
    document.cleanedId id = id := by
  have notFound : (document.bullets.find? fun bullet => bullet.ownId? == some id) = none :=
    List.find?_eq_none.mpr fun bullet member found => absent bullet member (eq_of_beq found)
  rw [cleanedId, notFound]
  exact ite_self id

variable (document) in
/-- No bullet is left without a name by a cleanup: where its id goes, its placeholder is not empty. -/
def KeepsNames : Prop :=
  ∀ bullet ∈ document.bullets, bullet.ownId? = some bullet.id → bullet.id ∉ document.namedIds →
    bullet.placeholderId ≠ ""

theorem KeepsNames.cleanedId_eq_empty_iff (keeps : document.KeepsNames) (id : String) :
    document.cleanedId id = "" ↔ id = "" := by
  rw [cleanedId]
  split
  · exact Iff.rfl
  · next unnamed =>
    cases found : document.bullets.find? fun bullet => bullet.ownId? == some id with
    | none => exact Iff.rfl
    | some bullet =>
      have isOwn := List.find?_some found
      have own := beq_iff_eq.mp isOwn
      have same := Line.id_of_ownId? own
      refine iff_of_false (keeps bullet (List.mem_of_find?_eq_some found) ?_ ?_)
        (Line.ownId?_ne_empty own)
      · rw [own, same]
      · rw [same]
        exact fun isNamed => unnamed (List.contains_iff_mem.mpr isNamed)

namespace KeepsApart

variable (apart : document.KeepsApart) {bullet : Line} (member : bullet ∈ document.bullets)

include apart member

theorem cleanedId_of_dropped (written : bullet.ownId? = some bullet.id)
    (unnamed : bullet.id ∉ document.namedIds) :
    document.cleanedId bullet.id = bullet.placeholderId := by
  rw [cleanedId, if_neg fun named => unnamed (List.contains_iff_mem.mp named)]
  cases found : document.bullets.find? fun other => other.ownId? == some bullet.id with
  | none => exact absurd (beq_iff_eq.mpr written) (List.find?_eq_none.mp found bullet member)
  | some other =>
    have own := List.find?_some found
    rw [apart.eq_of_id_eq (List.mem_of_find?_eq_some found) member
      (Line.id_of_ownId? (beq_iff_eq.mp own))]
    rfl

/-- What a cleanup makes of a bullet: its id stays, or it goes and the placeholder stands in. -/
theorem cleaned_cases (declared : List String) :
    (bullet.cleaned declared document.namedIds).id = bullet.id ∧
        document.cleanedId bullet.id = bullet.id ∨
      (bullet.cleaned declared document.namedIds).id = bullet.placeholderId ∧
        document.cleanedId bullet.id = bullet.placeholderId ∧ bullet.id ∉ document.namedIds := by
  have later := Line.ownId?_cleaned declared document.namedIds bullet
  rcases bullet.id_cases with own | ⟨none, placeholder⟩
  · rw [own] at later
    by_cases named : bullet.id ∈ document.namedIds
    · rw [Option.filter_some_pos (List.contains_iff_mem.mpr named)] at later
      exact Or.inl ⟨Line.id_of_ownId? later, cleanedId_of_named named⟩
    · have absent : document.namedIds.contains bullet.id = false :=
        Bool.eq_false_iff.mpr fun found => named (List.contains_iff_mem.mp found)
      rw [Option.filter_some_neg absent] at later
      refine Or.inr ⟨?_, apart.cleanedId_of_dropped member own named, named⟩
      rw [Line.id, later]
      rfl
  · refine Or.inl ⟨?_, cleanedId_of_not_written fun other otherMember => ?_⟩
    · rw [Line.id, later, none, placeholder]
      rfl
    · rw [placeholder]
      exact (apart.unwritten other otherMember bullet member).1

/-- Where a link names a bullet at all, it names an id written for one. -/
theorem contains_declaredIds_eq {id : String} (link : id ∈ bullet.linkIds) :
    document.declaredIds.contains id = document.declares id := by
  rw [Bool.eq_iff_iff, List.contains_iff_mem, mem_declaredIds_iff, declares, List.contains_iff_mem,
    List.mem_map]
  constructor
  · rintro ⟨other, otherMember, own⟩
    exact ⟨other, otherMember, Line.id_of_ownId? own⟩
  · rintro ⟨other, otherMember, rfl⟩
    exact ⟨other, otherMember, apart.ownId?_of_mem_linkIds member otherMember link⟩

theorem renamedFrom_cleaned :
    (bullet.cleaned document.declaredIds document.namedIds).RenamedFrom bullet document.cleanedId
      document.declares where
  id := by
    rcases apart.cleaned_cases member document.declaredIds with ⟨id, same⟩ | ⟨id, same, -⟩
    · rw [id, same]
    · rw [id, same]
  idsIn := List.filter_congr fun id inside =>
    apart.contains_declaredIds_eq member (List.mem_append_left _ inside)
  idsOut := List.filter_congr fun id inside =>
    apart.contains_declaredIds_eq member (List.mem_append_right _ inside)
  ownStays := List.contains_iff_mem.mpr (List.mem_map_of_mem member)
  fixed id link _ := cleanedId_of_named (mem_namedIds_of_link member link)
  apart id link _ same := by
    rcases apart.cleaned_cases member document.declaredIds with ⟨stays, -⟩ | ⟨dropped, -⟩
    · rw [same, stays]
    · rw [same, dropped] at link
      exact absurd link (apart.unwritten bullet member bullet member).2

omit member

variable (placeholders : (document.bullets.map Line.placeholderId).Nodup)

include placeholders

theorem eq_of_id_eq_placeholderId {other : Line} (member : bullet ∈ document.bullets)
    (otherMember : other ∈ document.bullets) (same : bullet.id = other.placeholderId) :
    bullet = other := by
  rcases bullet.id_cases with own | ⟨-, placeholder⟩
  · rw [same] at own
    exact absurd own (apart.unwritten bullet member other otherMember).1
  · exact List.inj_on_of_nodup_map placeholders member otherMember (placeholder.symm.trans same)

/-- A cleanup gives no two bullets the same id. -/
theorem nodup_ids_cleanupIds : (document.cleanupIds.bullets.map Line.id).Nodup := by
  rw [bullets_cleanupIds, List.map_map]
  refine List.Nodup.map_on (fun bullet member other otherMember same => ?_)
    (List.Nodup.of_map Line.id apart.distinct)
  rw [Function.comp_apply, Function.comp_apply] at same
  rcases apart.cleaned_cases member document.declaredIds with ⟨stays, -⟩ | ⟨goes, -⟩
  · rcases apart.cleaned_cases otherMember document.declaredIds with ⟨otherStays, -⟩ | ⟨otherGoes, -⟩
    · exact apart.eq_of_id_eq member otherMember (by rw [← stays, same, otherStays])
    · exact apart.eq_of_id_eq_placeholderId placeholders member otherMember
        (by rw [← stays, same, otherGoes])
  · rcases apart.cleaned_cases otherMember document.declaredIds with ⟨otherStays, -⟩ | ⟨otherGoes, -⟩
    · exact (apart.eq_of_id_eq_placeholderId placeholders otherMember member
        (by rw [← otherStays, ← same, goes])).symm
    · exact List.inj_on_of_nodup_map placeholders member otherMember
        (by rw [← goes, same, otherGoes])

end KeepsApart

variable (document) in
/-- A cleanup of ids is complete in one pass: a second one changes nothing. Where ids tell the bullets
apart and no bullet loses its name, the graph after it is the graph before it, in which ids that
nothing names are replaced by placeholders and the edges at an id that no bullet has are left out. -/
theorem cleanupIds_complete :
    (document.cleanupIds.cleanupCount = 0 ∧ document.cleanupIds.cleanupIds = document.cleanupIds) ∧
      (document.KeepsApart → (document.bullets.map Line.placeholderId).Nodup →
        document.KeepsNames → ∃ before after, Graph.build document.lines = .ok before ∧
          Graph.build document.cleanupIds.lines = .ok after ∧
          after.RenamedFrom before document.cleanedId ((before.links.edges.filter fun edge =>
            document.declares edge.source && document.declares edge.destination).map
              (Edge.renamed document.cleanedId))) := by
  refine ⟨⟨document.cleanupCount_cleanupIds, document.cleanupIds_cleanupIds⟩,
    fun apart placeholders keeps => ?_⟩
  have frame := Line.withoutIds_cleaned document.declaredIds document.namedIds
  have legal := apart.legal_of_bullets_eq frame document.bullets_cleanupIds
  refine ⟨_, _, Graph.build_eq_ok apart.legal, Graph.build_eq_ok legal, ?_⟩
  exact apart.renamedFrom frame document.bullets_cleanupIds
    (apart.nodup_ids_cleanupIds placeholders) keeps.cleanedId_eq_empty_iff
    fun bullet member => apart.renamedFrom_cleaned member

/-- Two ids that nothing names go and a third one stays for a script; a link to nobody goes. -/
theorem cleanupIds_complete_script :
    let document := ofText 2 (IdSupply.numbered []) "- A // a >b >gone
- B // b [+]
  - C // c
- D // d [x] >b
$ show c
"
    (document.bullets.map Line.id = ["a", "b", "c", "d"] ∧
        document.cleanupIds.bullets.map Line.id = ["ph_1", "b", "c", "ph_4"]) ∧
      document.cleanupIds.cleanupIds = document.cleanupIds ∧
      ∃ before after, Graph.build document.lines = .ok before ∧
        Graph.build document.cleanupIds.lines = .ok after ∧
        before.links.edges.length = 3 ∧
        after.links.edges.Perm [⟨"ph_1", "b", .link, true⟩, ⟨"ph_4", "b", .link, true⟩] ∧
        after.hideIds.toList = ["ph_4"] := by
  intro document
  have apart : document.KeepsApart := ⟨by decide +kernel, by decide +kernel, by decide +kernel⟩
  have placeholders : (document.bullets.map Line.placeholderId).Nodup := by decide +kernel
  have keeps : document.KeepsNames := by
    unfold KeepsNames
    decide +kernel
  obtain ⟨⟨-, once⟩, whole⟩ := cleanupIds_complete document
  obtain ⟨before, after, built, builtAfter, renamed⟩ := whole apart placeholders keeps
  have start := Graph.eq_ofBullets_of_build built
  have edges := renamed.edges
  have hidden := renamed.hideIds
  rw [start] at edges hidden
  refine ⟨by decide +kernel, once, before, after, built, builtAfter, ?_, ?_, ?_⟩
  · rw [start]
    decide +kernel
  · have listed : (((Graph.ofBullets (bulletsOf document.lines)).links.edges.filter fun edge =>
        document.declares edge.source && document.declares edge.destination).map
          (Edge.renamed document.cleanedId)) =
        [⟨"ph_1", "b", .link, true⟩, ⟨"ph_4", "b", .link, true⟩] := by decide +kernel
    rwa [listed] at edges
  · rw [hidden]
    decide +kernel

/-- Where the id that goes gives way to an empty placeholder, an edge between two bullets that declare
their ids is lost. -/
theorem cleanupIds_loses_edge :
    let document := ofText 2 .numberedAfterEmpty "- A // a >b
- B // b
"
    document.KeepsApart ∧ (document.bullets.map Line.placeholderId).Nodup ∧
      (document.bullets.map fun bullet => bullet.ownId?) = [some "a", some "b"] ∧
      ∃ before after, Graph.build document.lines = .ok before ∧
        Graph.build document.cleanupIds.lines = .ok after ∧
        before.links.edges = [⟨"a", "b", .link, true⟩] ∧ after.links.edges = [] := by
  intro document
  have apart : document.KeepsApart := ⟨by decide +kernel, by decide +kernel, by decide +kernel⟩
  have legal : firstBadIndent? 0 document.cleanupIds.bullets = none := by decide +kernel
  exact ⟨apart, by decide +kernel, by decide +kernel, _, _, Graph.build_eq_ok apart.legal,
    Graph.build_eq_ok legal, by decide +kernel, by decide +kernel⟩

end Document

end OutlineDiagram
