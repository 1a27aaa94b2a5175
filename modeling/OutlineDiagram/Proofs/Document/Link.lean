/-
This file proves that linking two bullets changes the graph by one edge only. An id
that is drawn for a bullet is nobody's, so it takes the place of the placeholder and
no link comes to mean the bullet by accident. Two ids are drawn at most and one link
is written; the graph is renamed twice and then gets the edge.
-/

import OutlineDiagram.Proofs.Document.Named
import OutlineDiagram.Proofs.Document.Places

namespace OutlineDiagram

/-- An id after one id was replaced by another. -/
def replaceId (old new id : String) : String := if id = old then new else id

theorem replaceId_self (old new : String) : replaceId old new old = new := if_pos rfl

theorem replaceId_of_ne {old id : String} (different : id ≠ old) (new : String) :
    replaceId old new id = id := if_neg different

theorem replaceId_same (same id : String) : replaceId same same id = id := by
  rw [replaceId]
  split
  · next equal => exact equal.symm
  · rfl

theorem replaceId_eq_empty_iff {old new : String} (hasOld : old ≠ "") (hasNew : new ≠ "")
    (id : String) : replaceId old new id = "" ↔ id = "" := by
  by_cases same : id = old
  · rw [same, replaceId_self]
    exact iff_of_false hasNew hasOld
  · rw [replaceId_of_ne same]

/-! ### Changes of one line -/

/-- The line changed if it is at a position. -/
def Line.changeAt (index : Int) (change : Line → Line) (line : Line) : Line :=
  if line.index == index then change line else line

/-- The line with an id written for it. -/
def Line.withId (id : String) (line : Line) : Line := { line with explicitId := some id }

/-- The line with one more outgoing link. -/
def Line.withLink (id : String) (line : Line) : Line := { line with idsOut := line.idsOut ++ [id] }

namespace Line

variable {index : Int} {change : Line → Line}

theorem changeAt_self (change : Line → Line) (line : Line) :
    line.changeAt line.index change = change line :=
  if_pos (beq_self_eq_true line.index)

theorem changeAt_of_ne {line : Line} (elsewhere : line.index ≠ index) :
    line.changeAt index change = line := if_neg fun same => elsewhere (eq_of_beq same)

theorem withoutIds_changeAt (index : Int)
    (frame : ∀ line, (change line).withoutIds = line.withoutIds) (line : Line) :
    (line.changeAt index change).withoutIds = line.withoutIds := by
  rw [changeAt]
  split
  · exact frame line
  · rfl

theorem withoutIds_withId (id : String) (line : Line) :
    (line.withId id).withoutIds = line.withoutIds := rfl

theorem withoutIds_withLink (id : String) (line : Line) :
    (line.withLink id).withoutIds = line.withoutIds := rfl

theorem withoutIds_changeAt_withId (index : Int) (id : String) (line : Line) :
    (line.changeAt index (withId id)).withoutIds = line.withoutIds :=
  withoutIds_changeAt index (withoutIds_withId id) line

theorem placeholderId_changeAt_withId (index : Int) (id : String) (line : Line) :
    (line.changeAt index (withId id)).placeholderId = line.placeholderId := by
  rw [eq_of_withoutIds (withoutIds_changeAt_withId index id line)]

theorem linkIds_changeAt_withId (index : Int) (id : String) (line : Line) :
    (line.changeAt index (withId id)).linkIds = line.linkIds := by
  rw [changeAt]
  split <;> rfl

theorem ownId?_changeAt_withLink (index : Int) (id : String) (line : Line) :
    (line.changeAt index (withLink id)).ownId? = line.ownId? := by
  rw [changeAt]
  split <;> rfl

theorem id_changeAt_withLink (index : Int) (id : String) (line : Line) :
    (line.changeAt index (withLink id)).id = line.id := by
  rw [changeAt]
  split <;> rfl

theorem ownId?_withId {id : String} (hasName : id ≠ "") (line : Line) :
    (line.withId id).ownId? = some id := Option.filter_some_pos (bne_iff_ne.mpr hasName)

end Line

namespace Document

variable {document later : Document}

section ChangeLine

variable (index : Int) {change : Line → Line} (document : Document)

theorem lines_changeLine :
    (document.changeLine index change).lines = document.lines.map (Line.changeAt index change) := by
  show (document.entries.map _).filterMap Entry.line? = _
  rw [List.filterMap_map, Document.lines, List.map_filterMap]
  refine List.filterMap_congr fun entry _ => ?_
  cases entry with
  | blank text => rfl
  | script text => rfl
  | parsed line isEdited =>
    rw [Function.comp_apply, changeEntry, Entry.line?, Option.map_some, Line.changeAt]
    split <;> rfl

variable (frame : ∀ line, (change line).withoutIds = line.withoutIds)

include frame

theorem bullets_changeLine :
    (document.changeLine index change).bullets =
      document.bullets.map (Line.changeAt index change) := by
  rw [bullets, lines_changeLine, bulletsOf_map (Line.withoutIds_changeAt index frame), bullets]

theorem lineAt?_changeLine (place : Int) :
    (document.changeLine index change).lineAt? place =
      (document.lineAt? place).map (Line.changeAt index change) := by
  have sameIndex : (fun line : Line => line.index == place) ∘ Line.changeAt index change =
      fun line => line.index == place := by
    funext line
    rw [Function.comp_apply, Line.eq_of_withoutIds (Line.withoutIds_changeAt index frame line)]
  rw [lineAt?, lines_changeLine, List.find?_map, sameIndex, lineAt?]

end ChangeLine

theorem IsPlaced.lineAt?_of_mem (placed : document.IsPlaced) {line : Line}
    (member : line ∈ document.lines) : document.lineAt? line.index = some line :=
  find?_eq_some_of_nodup Line.index placed member

theorem IsPlaced.lineAt?_eq (placed : document.IsPlaced) {bullet : Line}
    (member : bullet ∈ document.bullets) : document.lineAt? bullet.index = some bullet :=
  placed.lineAt?_of_mem (List.mem_filter.mp member).1

/-! ### Ids that are drawn -/

theorem mem_usedIds_iff {id : String} :
    id ∈ document.usedIds ↔
      ∃ bullet ∈ document.bullets, bullet.ownId? = some id ∨ id ∈ bullet.linkIds := by
  refine IdSet.mem_ofList.trans (List.mem_flatMap.trans (exists_congr fun bullet => ?_))
  rw [List.mem_append, Option.mem_toList]

/-- A bullet keeps the id written for it. Otherwise an id that is not in use is drawn and written. -/
theorem materializeId_cases {line : Line} {id : String} {events : List Event}
    (named : document.materializeId line = .ok (id, later, events)) :
    (line.ownId? = some id ∧ later = document) ∨
      line.ownId? = none ∧ id ∉ document.usedIds ∧ document.supply.HandsOut id ∧
        later.bullets = document.bullets.map (Line.changeAt line.index (Line.withId id)) := by
  rw [materializeId] at named
  cases own : line.ownId? with
  | some written =>
    rw [own] at named
    obtain ⟨rfl, rest⟩ := Prod.mk.inj (Except.ok.inj named)
    exact Or.inl ⟨rfl, (Prod.mk.inj rest).1.symm⟩
  | none =>
    rw [own] at named
    dsimp only at named
    split at named
    · exact absurd named (by simp)
    · next drawnId supply drawn =>
      obtain ⟨rfl, rest⟩ := Prod.mk.inj (Except.ok.inj named)
      rw [← (Prod.mk.inj rest).1]
      refine Or.inr ⟨rfl, IdSupply.notMem_of_drawFresh drawn, (handsOut_of_drawFresh drawn).1, ?_⟩
      exact bullets_changeLine line.index document (Line.withoutIds_withId drawnId)

/-- A document whose bullets the supply can give ids to: ids tell the bullets apart, and what the
supply hands out is neither a placeholder nor empty. -/
structure CanName (document : Document) : Prop extends document.TellsApart where
  /-- Each line has a position of its own. -/
  placed : document.IsPlaced
  /-- No placeholder is handed out. -/
  reserved : ∀ bullet ∈ document.bullets, ¬document.supply.HandsOut bullet.placeholderId
  /-- The empty id is not handed out. -/
  handsNames : ¬document.supply.HandsOut ""

/-- The id is one that a bullet may get: it has it, or nobody else declares or names it. -/
def MayName (document : Document) (bullet : Line) (id : String) : Prop :=
  bullet.ownId? = some id ∨ bullet.ownId? = none ∧
    ∀ other ∈ document.bullets, other.ownId? ≠ some id ∧ id ∉ other.linkIds

/-- One document is another in which an id was given to a bullet. -/
structure GivesId (later first : Document) (bullet : Line) (id : String) : Prop where
  /-- The bullet may get the id. -/
  mayName : first.MayName bullet id
  /-- The id is not empty. -/
  named : id ≠ ""
  /-- The id is no placeholder. -/
  unreserved : ∀ other ∈ first.bullets, other.placeholderId ≠ id
  /-- The id is written for the bullet. -/
  bullets : later.bullets = first.bullets.map (Line.changeAt bullet.index (Line.withId id))
  /-- Nothing but metadata is edited. -/
  edited : later.EditedFrom first

theorem CanName.givesId (canName : document.CanName) {bullet : Line}
    (member : bullet ∈ document.bullets) {id : String} {events : List Event}
    (named : document.materializeId bullet = .ok (id, later, events)) :
    later.GivesId document bullet id := by
  have edited := editedFrom_materializeId named
  rcases materializeId_cases named with ⟨own, rfl⟩ | ⟨none, unused, handed, bullets⟩
  · refine ⟨Or.inl own, Line.ownId?_ne_empty own, fun other otherMember same => ?_, ?_, edited⟩
    · exact (canName.unwritten bullet member other otherMember).1 (same ▸ own)
    · refine ((List.map_congr_left fun other otherMember => ?_).trans (List.map_id _)).symm
      by_cases here : other.index = bullet.index
      · obtain rfl := canName.placed.bullet_unique otherMember member here
        have written : other.explicitId = some id := (Option.filter_eq_some_iff.mp own).1
        rw [Line.changeAt_self, Line.withId, ← written]
        rfl
      · exact Line.changeAt_of_ne here
  · have fresh : ∀ other ∈ document.bullets, other.ownId? ≠ some id ∧ id ∉ other.linkIds :=
      fun other otherMember =>
        ⟨fun own => unused (mem_usedIds_iff.mpr ⟨other, otherMember, Or.inl own⟩),
          fun link => unused (mem_usedIds_iff.mpr ⟨other, otherMember, Or.inr link⟩)⟩
    refine ⟨Or.inr ⟨none, fresh⟩, fun empty => canName.handsNames (empty ▸ handed),
      fun other otherMember same => canName.reserved other otherMember (same ▸ handed), bullets,
      edited⟩

/-- A change at the position of a bullet changes the bullet and no other one. -/
theorem IsPlaced.changeAt_cases (placed : document.IsPlaced) {bullet other : Line}
    (member : bullet ∈ document.bullets) (change : Line → Line)
    (otherMember : other ∈ document.bullets) :
    other = bullet ∧ other.changeAt bullet.index change = change bullet ∨
      other ≠ bullet ∧ other.changeAt bullet.index change = other := by
  by_cases same : other = bullet
  · rw [same]
    exact Or.inl ⟨rfl, bullet.changeAt_self change⟩
  · refine Or.inr ⟨same, Line.changeAt_of_ne fun here => same ?_⟩
    exact placed.bullet_unique otherMember member here

namespace GivesId

variable {bullet : Line} {id : String} (gives : later.GivesId document bullet id)
  (canName : document.CanName) (member : bullet ∈ document.bullets)

include gives canName member

/-- No other bullet goes by the id. -/
theorem id_ne {other : Line} (otherMember : other ∈ document.bullets) (different : other ≠ bullet) :
    other.id ≠ id := by
  intro same
  rcases gives.mayName with own | ⟨-, fresh⟩
  · exact different (canName.eq_of_id_eq otherMember member (same.trans (Line.id_of_ownId? own).symm))
  · rcases other.id_cases with own | ⟨-, placeholder⟩
    · exact (fresh other otherMember).1 (same ▸ own)
    · exact gives.unreserved other otherMember (placeholder ▸ same)

theorem id_changeAt {other : Line} (otherMember : other ∈ document.bullets) :
    (other.changeAt bullet.index (Line.withId id)).id = replaceId bullet.id id other.id := by
  rcases canName.placed.changeAt_cases member (Line.withId id) otherMember with ⟨rfl, now⟩ | ⟨different, now⟩
  · rw [now, replaceId_self, Line.id_of_ownId? (Line.ownId?_withId gives.named _)]
  · rw [now, replaceId_of_ne fun same => different (canName.eq_of_id_eq otherMember member same)]

/-- No link means the bullet unless its id is written already. -/
theorem renamedFrom_changeAt {other : Line} (otherMember : other ∈ document.bullets) :
    (other.changeAt bullet.index (Line.withId id)).RenamedFrom other (replaceId bullet.id id)
      fun _ => true where
  id := gives.id_changeAt canName member otherMember
  idsIn := by
    rw [List.filter_true, Line.changeAt]
    split <;> rfl
  idsOut := by
    rw [List.filter_true, Line.changeAt]
    split <;> rfl
  ownStays := rfl
  fixed name link _ := by
    by_cases same : name = bullet.id
    · rw [same] at link
      have own := canName.ownId?_of_mem_linkIds otherMember member link
      rcases gives.mayName with written | ⟨none, -⟩
      · rw [Line.id_of_ownId? written, replaceId_same]
      · exact absurd own (by simp [none])
    · exact replaceId_of_ne same id
  apart name link _ same := by
    rw [gives.id_changeAt canName member otherMember] at same
    rcases canName.placed.changeAt_cases member (Line.withId id) otherMember with ⟨rfl, -⟩ | ⟨different, -⟩
    · rw [replaceId_self] at same
      rcases gives.mayName with own | ⟨-, fresh⟩
      · rw [same, Line.id_of_ownId? own]
      · exact absurd (same ▸ link) (fresh other otherMember).2
    · rwa [replaceId_of_ne fun equal =>
        different (canName.eq_of_id_eq otherMember member equal)] at same

theorem nodup_ids : (later.bullets.map Line.id).Nodup := by
  rw [gives.bullets, List.map_map]
  refine List.Nodup.map_on (fun first firstMember second secondMember same => ?_)
    (List.Nodup.of_map Line.id canName.distinct)
  rw [Function.comp_apply, Function.comp_apply] at same
  have written : (bullet.withId id).id = id := Line.id_of_ownId? (Line.ownId?_withId gives.named _)
  rcases canName.placed.changeAt_cases member (Line.withId id) firstMember with ⟨rfl, now⟩ | ⟨different, now⟩
  · rcases canName.placed.changeAt_cases member (Line.withId id) secondMember with ⟨rfl, -⟩ | ⟨other, also⟩
    · rfl
    · rw [now, also, written] at same
      exact absurd same.symm (gives.id_ne canName member secondMember other)
  · rcases canName.placed.changeAt_cases member (Line.withId id) secondMember with ⟨rfl, also⟩ | ⟨other, also⟩
    · rw [now, also, written] at same
      exact absurd same (gives.id_ne canName member firstMember different)
    · rw [now, also] at same
      exact canName.eq_of_id_eq firstMember secondMember same

/-- Giving an id renames the bullet in the graph and does nothing else. -/
theorem grownFrom :
    (Graph.ofBullets later.bullets).GrownFrom (Graph.ofBullets document.bullets)
      (replaceId bullet.id id) [] := by
  have renamed := canName.renamedFrom (Line.withoutIds_changeAt_withId bullet.index id) gives.bullets
    (gives.nodup_ids canName member)
    (replaceId_eq_empty_iff (canName.id_ne_empty member) gives.named)
    fun other otherMember => gives.renamedFrom_changeAt canName member otherMember
  rw [Graph.GrownFrom, List.append_nil]
  simpa only [Bool.and_self, List.filter_true] using renamed

/-- Afterwards ids can still be given. -/
theorem canName_later : later.CanName where
  legal := canName.legal_of_bullets_eq (Line.withoutIds_changeAt_withId bullet.index id) gives.bullets
  distinct := gives.nodup_ids canName member
  unwritten := by
    rw [gives.bullets, List.forall_mem_map]
    intro first firstMember
    rw [List.forall_mem_map]
    intro second secondMember
    have before := canName.unwritten first firstMember second secondMember
    rw [Line.placeholderId_changeAt_withId, Line.linkIds_changeAt_withId]
    refine ⟨?_, before.2⟩
    rcases canName.placed.changeAt_cases member (Line.withId id) firstMember with ⟨-, now⟩ | ⟨-, now⟩
    · rw [now, Line.ownId?_withId gives.named]
      exact fun same => gives.unreserved second secondMember (Option.some.inj same).symm
    · rw [now]
      exact before.1
  named := by
    rw [gives.bullets, List.forall_mem_map]
    intro other otherMember
    rw [Line.placeholderId_changeAt_withId]
    exact canName.named other otherMember
  placed := by
    rw [IsPlaced, gives.edited.map_index_lines]
    exact canName.placed
  reserved := by
    rw [EditedFrom.handsOut_eq gives.edited.compactAt, gives.bullets, List.forall_mem_map]
    intro other otherMember
    rw [Line.placeholderId_changeAt_withId]
    exact canName.reserved other otherMember
  handsNames := by
    rw [EditedFrom.handsOut_eq gives.edited.compactAt]
    exact canName.handsNames

/-- What may be given to another bullet afterwards could be given to it before. -/
theorem mayName_of_later {other : Line} {otherId : String} (mayName : later.MayName other otherId) :
    document.MayName other otherId := by
  refine mayName.imp_right fun ⟨unwritten, fresh⟩ => ⟨unwritten, fun one oneMember => ?_⟩
  rw [gives.bullets, List.forall_mem_map] at fresh
  obtain ⟨notOwn, notLinked⟩ := fresh one oneMember
  rw [Line.linkIds_changeAt_withId] at notLinked
  refine ⟨fun own => notOwn ?_, notLinked⟩
  rcases canName.placed.changeAt_cases member (Line.withId id) oneMember with ⟨rfl, now⟩ | ⟨-, now⟩
  · rcases gives.mayName with written | ⟨unwritten, -⟩
    · rw [now, Line.ownId?_withId gives.named, ← written, own]
    · exact absurd own (by simp [unwritten])
  · rwa [now]

/-- A bullet links to the new id if it linked to the old one. -/
theorem mem_linkIds_iff {other : Line} (otherMember : other ∈ document.bullets) {links : List String}
    (inside : ∀ link ∈ links, link ∈ other.linkIds) : id ∈ links ↔ bullet.id ∈ links := by
  rcases gives.mayName with own | ⟨none, fresh⟩
  · rw [Line.id_of_ownId? own]
  · refine iff_of_false (fun link => (fresh other otherMember).2 (inside id link)) fun link => ?_
    have own := canName.ownId?_of_mem_linkIds otherMember member (inside _ link)
    exact absurd own (by simp [none])

omit canName in
theorem withId_mem : bullet.withId id ∈ later.bullets := by
  rw [gives.bullets, ← bullet.changeAt_self (Line.withId id)]
  exact List.mem_map_of_mem member

theorem mem_of_ne {other : Line} (otherMember : other ∈ document.bullets)
    (different : other ≠ bullet) : other ∈ later.bullets := by
  rcases canName.placed.changeAt_cases member (Line.withId id) otherMember with ⟨same, -⟩ | ⟨-, now⟩
  · exact absurd same different
  · rw [gives.bullets, ← now]
    exact List.mem_map_of_mem otherMember

end GivesId

/-! ### One more link -/

theorem authoredLinks_withLink {bullet : Line} {id : String} (different : id ≠ bullet.id) :
    authoredLinks (bullet.withLink id) = authoredLinks bullet ++ [⟨bullet.id, id, .link, true⟩] := by
  have stays : [id].filter (· != bullet.id) = [id] :=
    List.filter_eq_self.mpr fun link single => by
      rw [List.mem_singleton.mp single, bne_iff_ne]
      exact different
  show _ ++ ((bullet.idsOut ++ [id]).filter (· != bullet.id)).map _ = _
  rw [List.filter_append, stays, List.map_append, ← List.append_assoc]
  rfl

theorem flatMap_authoredLinks_perm {bullets : List Line} {bullet : Line} (member : bullet ∈ bullets)
    (distinct : bullets.Nodup) (change : Line → Line) {more : List Edge}
    (own : authoredLinks (change bullet) = authoredLinks bullet ++ more)
    (others : ∀ other ∈ bullets, other ≠ bullet → change other = other) :
    ((bullets.map change).flatMap authoredLinks).Perm (bullets.flatMap authoredLinks ++ more) := by
  induction bullets with
  | nil => exact absurd member List.not_mem_nil
  | cons first rest inductionHypothesis =>
    obtain ⟨fresh, restDistinct⟩ := List.nodup_cons.mp distinct
    rw [List.map_cons, List.flatMap_cons, List.flatMap_cons, List.append_assoc]
    rcases List.mem_cons.mp member with rfl | inRest
    · have same : rest.map change = rest := (List.map_congr_left fun other otherMember =>
        others other (List.mem_cons_of_mem _ otherMember) fun equal =>
          fresh (equal ▸ otherMember)).trans (List.map_id _)
      rw [own, same, List.append_assoc]
      exact List.perm_append_comm.append_left _
    · have isOther : first ≠ bullet := fun equal => fresh (equal ▸ inRest)
      rw [others first List.mem_cons_self isOther]
      exact (inductionHypothesis inRest restDistinct fun other otherMember =>
        others other (List.mem_cons_of_mem _ otherMember)).append_left _

theorem map_id_withLink (index : Int) (id : String) (document : Document) :
    (document.changeLine index (Line.withLink id)).bullets.map Line.id =
      document.bullets.map Line.id := by
  rw [bullets_changeLine index document (Line.withoutIds_withLink id), List.map_map]
  exact List.map_congr_left fun other _ => Line.id_changeAt_withLink index id other

/-- Writing one more link adds its edge to the graph and does nothing else. -/
theorem CanName.grownFrom_withLink (canName : document.CanName) {bullet : Line}
    (member : bullet ∈ document.bullets) {id : String} (different : id ≠ bullet.id)
    (named : id ≠ "") :
    (Graph.ofBullets (document.changeLine bullet.index (Line.withLink id)).bullets).GrownFrom
      (Graph.ofBullets document.bullets) (fun name => name) [⟨bullet.id, id, .link, true⟩] := by
  have added := flatMap_authoredLinks_perm member (List.Nodup.of_map Line.id canName.distinct)
    (Line.changeAt bullet.index (Line.withLink id))
    (by rw [Line.changeAt_self, authoredLinks_withLink different])
    fun other otherMember isOther =>
      Line.changeAt_of_ne fun here => isOther (canName.placed.bullet_unique otherMember member here)
  have single : LinkGraph.kept [⟨bullet.id, id, .link, true⟩] = [⟨bullet.id, id, .link, true⟩] :=
    LinkGraph.kept_singleton_of_named (canName.id_ne_empty member) named
  have distinct := map_id_withLink bullet.index id document ▸ canName.distinct
  rw [bullets_changeLine bullet.index document (Line.withoutIds_withLink id)] at distinct ⊢
  refine renamedFrom_ofBullets
    (Line.withoutIds_changeAt bullet.index (Line.withoutIds_withLink id))
    (fun other _ => Line.id_changeAt_withLink bullet.index id other) canName.distinct distinct ?_
  refine ((added.filter _).map _).trans ?_
  show (LinkGraph.kept (document.bullets.flatMap authoredLinks ++ _)).Perm _
  rw [LinkGraph.kept_append, single]
  refine List.Perm.append_right _ ?_
  have edges := (LinkGraph.holds_addEdges (document.bullets.flatMap authoredLinks)).edges_perm
  exact edges.symm.trans (List.Perm.of_eq (List.map_id' _).symm)

/-! ### Linked documents -/

/-- A bullet has an id written for it now, one that it could get before. -/
structure NamedSince (later first : Document) (bullet : Line) (id : String) : Prop where
  /-- The id is written for the bullet. -/
  written : (later.lineAt? bullet.index).bind (fun now => now.ownId?) = some id
  /-- The bullet had the id, or no bullet declared or named it. -/
  mayName : first.MayName bullet id

theorem namedSince_of_mem (placed : later.IsPlaced) (bullet : Line) {now : Line}
    (member : now ∈ later.bullets) (here : now.index = bullet.index) {id : String}
    (own : now.ownId? = some id) (mayName : document.MayName bullet id) :
    later.NamedSince document bullet id where
  written := by
    rw [← here, placed.lineAt?_eq member, Option.bind_some, own]
  mayName := mayName

theorem NamedSince.withLink {bullet : Line} {id : String} (named : later.NamedSince document bullet id)
    (index : Int) (more : String) :
    (later.changeLine index (Line.withLink more)).NamedSince document bullet id where
  written := by
    rw [lineAt?_changeLine index later (Line.withoutIds_withLink more), Option.bind_map,
      ← named.written]
    exact congrArg _ (funext fun now => Line.ownId?_changeAt_withLink index more now)
  mayName := named.mayName

/-- Of two bullets to be linked both get ids, the target first, and then the link is written unless
it is there. -/
theorem CanName.exists_of_link (canName : document.CanName) {source target : Line}
    (sourceMember : source ∈ document.bullets) (targetMember : target ∈ document.bullets)
    (different : source ≠ target) {events : List Event}
    (linked : document.link source target = .ok (later, events)) :
    ∃ sourceId targetId withTarget withSource,
      GivesId withTarget document target targetId ∧ GivesId withSource withTarget source sourceId ∧
        later = if source.idsOut.contains targetId then withSource
          else withSource.changeLine source.index (Line.withLink targetId) := by
  obtain ⟨targetId, withTarget, _, sourceId, withSource, _, targetNamed, sourceNamed, changed⟩ :=
    link_cases linked
  have gives := canName.givesId targetMember targetNamed
  have now := gives.mem_of_ne canName targetMember sourceMember different
  have canNameNow := gives.canName_later canName targetMember
  -- The source is not the target, so it is found as it was.
  rw [canNameNow.placed.lineAt?_eq now, Option.getD_some] at sourceNamed changed
  exact ⟨sourceId, targetId, withTarget, withSource, gives, canNameNow.givesId now sourceNamed,
    changed⟩

section Linked

variable {withTarget withSource : Document} {source target : Line} {sourceId targetId : String}
  (canName : document.CanName) (sourceMember : source ∈ document.bullets)
  (targetMember : target ∈ document.bullets) (different : source ≠ target)
  (givesTarget : GivesId withTarget document target targetId)
  (givesSource : GivesId withSource withTarget source sourceId)

include canName sourceMember targetMember different givesTarget givesSource

/-- Once both bullets have their ids, ids can still be given, and the bullets are there. -/
theorem canName_and_mem_of_gives :
    withSource.CanName ∧ source.withId sourceId ∈ withSource.bullets ∧
      target.withId targetId ∈ withSource.bullets ∧ targetId ≠ sourceId := by
  have canNameTarget := givesTarget.canName_later canName targetMember
  have sourceNow := givesTarget.mem_of_ne canName targetMember sourceMember different
  have targetNow := givesTarget.withId_mem targetMember
  have stillDifferent : target.withId targetId ≠ source := fun same =>
    different (canName.placed.bullet_unique sourceMember targetMember (same ▸ rfl))
  refine ⟨givesSource.canName_later canNameTarget sourceNow, givesSource.withId_mem sourceNow,
    givesSource.mem_of_ne canNameTarget sourceNow targetNow stillDifferent, fun same => ?_⟩
  refine givesSource.id_ne canNameTarget sourceNow targetNow stillDifferent ?_
  rw [Line.id_of_ownId? (Line.ownId?_withId givesTarget.named target), same]

omit different givesSource in
/-- The target is linked already when it was linked by the id that it had. -/
theorem contains_idsOut_eq :
    source.idsOut.contains targetId = source.idsOut.contains target.id := by
  rw [Bool.eq_iff_iff, List.contains_iff_mem, List.contains_iff_mem]
  exact givesTarget.mem_linkIds_iff canName targetMember sourceMember fun _ inside =>
    List.mem_append_right _ inside

theorem namedSince_of_gives :
    withSource.NamedSince document source sourceId ∧ withSource.NamedSince document target targetId := by
  obtain ⟨canNameSource, sourceNow, targetNow, -⟩ := canName_and_mem_of_gives canName sourceMember
    targetMember different givesTarget givesSource
  have mayName := givesTarget.mayName_of_later canName targetMember givesSource.mayName
  exact ⟨namedSince_of_mem canNameSource.placed source sourceNow rfl
      (Line.ownId?_withId givesSource.named source) mayName,
    namedSince_of_mem canNameSource.placed target targetNow rfl
      (Line.ownId?_withId givesTarget.named target) givesTarget.mayName⟩

theorem grownFrom_of_gives :
    (Graph.ofBullets withSource.bullets).GrownFrom (Graph.ofBullets document.bullets)
      (replaceId source.id sourceId ∘ replaceId target.id targetId) [] := by
  have canNameTarget := givesTarget.canName_later canName targetMember
  have sourceNow := givesTarget.mem_of_ne canName targetMember sourceMember different
  exact (givesSource.grownFrom canNameTarget sourceNow).trans
    (givesTarget.grownFrom canName targetMember)

theorem grownFrom_withLink_of_gives :
    (Graph.ofBullets (withSource.changeLine source.index (Line.withLink targetId)).bullets).GrownFrom
      (Graph.ofBullets document.bullets)
      (replaceId source.id sourceId ∘ replaceId target.id targetId)
      [⟨sourceId, targetId, .link, true⟩] := by
  obtain ⟨canNameSource, sourceNow, -, apart⟩ := canName_and_mem_of_gives canName sourceMember
    targetMember different givesTarget givesSource
  have sameId : (source.withId sourceId).id = sourceId :=
    Line.id_of_ownId? (Line.ownId?_withId givesSource.named source)
  have linked := canNameSource.grownFrom_withLink sourceNow (sameId.symm ▸ apart) givesTarget.named
  rw [sameId] at linked
  exact linked.trans (grownFrom_of_gives canName sourceMember targetMember different givesTarget
    givesSource)

end Linked

/-- In a session whose ids tell the bullets apart, with a supply that hands out neither placeholders
nor the empty id: an id given to a bullet is its own or nobody's and renames the bullet in the graph,
and a link renames both bullets and adds one edge unless the link is there. -/
theorem link_afterAll (unit : Int) (supply : IdSupply) (text : String) (edits : List Edit) :
    let document := (ofText unit supply text).afterAll edits
    document.TellsApart → (∀ bullet ∈ document.bullets, ¬supply.HandsOut bullet.placeholderId) →
      ¬supply.HandsOut "" →
      (∀ bullet ∈ document.bullets, ∀ id later events,
        document.materializeId bullet = .ok (id, later, events) →
          later.NamedSince document bullet id ∧ (later.bullets.map Line.id).Nodup ∧
            ∃ before after, Graph.build document.lines = .ok before ∧
              Graph.build later.lines = .ok after ∧
              after.GrownFrom before (replaceId bullet.id id) []) ∧
      ∀ source ∈ document.bullets, ∀ target ∈ document.bullets, source ≠ target →
        ∀ later events, document.link source target = .ok (later, events) →
          ∃ sourceId targetId, later.NamedSince document source sourceId ∧
            later.NamedSince document target targetId ∧ (later.bullets.map Line.id).Nodup ∧
            ∃ before after, Graph.build document.lines = .ok before ∧
              Graph.build later.lines = .ok after ∧
              after.GrownFrom before (replaceId source.id sourceId ∘ replaceId target.id targetId)
                (if source.idsOut.contains target.id then []
                  else [⟨sourceId, targetId, .link, true⟩]) := by
  intro document apart reserved handsNames
  have handed : document.supply.HandsOut = supply.HandsOut :=
    EditedFrom.handsOut_eq ((editedFrom_afterAll _ edits).compactAt.trans
      (compactAt_readEntries unit 0 (linesOf text) supply))
  have canName : document.CanName :=
    ⟨apart, isPlaced_afterAll unit supply text edits, handed.symm ▸ reserved, handed.symm ▸ handsNames⟩
  refine ⟨fun bullet member id later events named => ?_,
    fun source sourceMember target targetMember different later events linked => ?_⟩
  · have gives := canName.givesId member named
    have canNameLater := gives.canName_later canName member
    exact ⟨namedSince_of_mem canNameLater.placed bullet (gives.withId_mem member) rfl
        (Line.ownId?_withId gives.named bullet) gives.mayName, canNameLater.distinct, _, _,
      Graph.build_eq_ok apart.legal, Graph.build_eq_ok canNameLater.legal,
      gives.grownFrom canName member⟩
  · obtain ⟨sourceId, targetId, withTarget, withSource, givesTarget, givesSource, rfl⟩ :=
      canName.exists_of_link sourceMember targetMember different linked
    obtain ⟨canNameSource, -⟩ := canName_and_mem_of_gives canName sourceMember targetMember different
      givesTarget givesSource
    obtain ⟨sourceNamed, targetNamed⟩ := namedSince_of_gives canName sourceMember targetMember
      different givesTarget givesSource
    refine ⟨sourceId, targetId, ?_⟩
    rw [← contains_idsOut_eq canName sourceMember targetMember givesTarget]
    cases source.idsOut.contains targetId with
    | true =>
      exact ⟨sourceNamed, targetNamed, canNameSource.distinct, _, _, Graph.build_eq_ok apart.legal,
        Graph.build_eq_ok canNameSource.legal,
        grownFrom_of_gives canName sourceMember targetMember different givesTarget givesSource⟩
    | false =>
      have frame := Line.withoutIds_changeAt source.index (Line.withoutIds_withLink targetId)
      have legal := canNameSource.legal_of_bullets_eq frame
        (bullets_changeLine source.index withSource (Line.withoutIds_withLink targetId))
      exact ⟨sourceNamed.withLink source.index targetId, targetNamed.withLink source.index targetId,
        (map_id_withLink source.index targetId withSource).symm ▸ canNameSource.distinct, _, _,
        Graph.build_eq_ok apart.legal, Graph.build_eq_ok legal,
        grownFrom_withLink_of_gives canName sourceMember targetMember different givesTarget givesSource⟩

/-- A numbered compact id begins like no placeholder. -/
theorem head?_of_handsOut_numbered {id : String} (handed : (IdSupply.numbered []).HandsOut id) :
    id.toList.head? = some 'i' := by
  obtain ⟨placeholders, compacts, rfl⟩ := handed
  simp [IdSupply.numbered]

/-- A folded bullet and the one above it get ids, and the edge between them is the only new one. -/
theorem link_afterAll_fresh :
    let document := (ofText 2 (IdSupply.numbered []) "- A
  - B // >c
- C // c
").afterAll [.line .fold 1, .line .hide 2]
    ∃ source ∈ document.bullets, ∃ target ∈ document.bullets, ∃ later events,
      document.link source target = .ok (later, events) ∧
      ∃ before after, Graph.build document.lines = .ok before ∧ Graph.build later.lines = .ok after ∧
        after.GrownFrom before (replaceId "ph_1" "id_0002" ∘ replaceId "ph_2" "id_0001")
          [⟨"id_0002", "id_0001", .link, true⟩] := by
  intro document
  have apart : document.TellsApart :=
    ⟨⟨by decide +kernel, by decide +kernel, by decide +kernel⟩, by decide +kernel⟩
  have begins : ∀ bullet ∈ document.bullets, bullet.placeholderId.toList.head? = some 'p' := by
    decide +kernel
  have reserved : ∀ bullet ∈ document.bullets,
      ¬(IdSupply.numbered []).HandsOut bullet.placeholderId := by
    intro bullet member handed
    have letter := head?_of_handsOut_numbered handed
    rw [begins bullet member] at letter
    exact absurd letter (by decide)
  have handsNames : ¬(IdSupply.numbered []).HandsOut "" := fun handed =>
    absurd (head?_of_handsOut_numbered handed) (by decide)
  obtain ⟨-, links⟩ := link_afterAll 2 (IdSupply.numbered []) _ [.line .fold 1, .line .hide 2]
    apart reserved handsNames
  let source := document.bullets.getD 0 default
  let target := document.bullets.getD 1 default
  have sourceMember : source ∈ document.bullets := by decide +kernel
  have targetMember : target ∈ document.bullets := by decide +kernel
  have ids : (document.link source target).map (fun done =>
      ((done.1.lineAt? source.index).bind fun now => now.ownId?,
        (done.1.lineAt? target.index).bind fun now => now.ownId?)) =
      .ok (some "id_0002", some "id_0001") := by decide +kernel
  cases linked : document.link source target with
  | error error =>
    rw [linked] at ids
    exact absurd ids (by simp [Except.map])
  | ok done =>
    obtain ⟨later, events⟩ := done
    obtain ⟨sourceId, targetId, sourceNamed, targetNamed, -, before, after, built, builtAfter, grown⟩ :=
      links source sourceMember target targetMember (by decide +kernel) later events linked
    rw [linked] at ids
    obtain ⟨sourceSame, targetSame⟩ := Prod.mk.inj (Except.ok.inj ids)
    rw [Option.some.inj (sourceNamed.written.symm.trans sourceSame),
      Option.some.inj (targetNamed.written.symm.trans targetSame)] at grown
    have isNew : source.idsOut.contains target.id = false := by decide +kernel
    have sourceId : source.id = "ph_1" := by decide +kernel
    have targetId : target.id = "ph_2" := by decide +kernel
    rw [isNew, sourceId, targetId] at grown
    exact ⟨source, sourceMember, target, targetMember, later, events, linked, before, after, built,
      builtAfter, grown⟩

/-- An empty id that is handed out is no placeholder, but it is no id either: the bullet that gets it
goes by its placeholder as before. -/
theorem materializeId_empty :
    let supply := IdSupply.numbered [""]
    let document := ofText 2 supply "- A
"
    document.TellsApart ∧
      (∀ placeholders compacts otherPlaceholders otherCompacts, supply.compactAt placeholders compacts ≠
        supply.placeholderAt otherPlaceholders otherCompacts) ∧
      ∃ bullet ∈ document.bullets, ∃ later events,
        document.materializeId bullet = .ok ("", later, events) ∧
        ¬∃ before after, Graph.build document.lines = .ok before ∧
          Graph.build later.lines = .ok after ∧ after.GrownFrom before (replaceId bullet.id "") [] := by
  intro supply document
  let bullet := document.bullets.getD 0 default
  have noPlaceholder : ∀ placeholders compacts otherPlaceholders otherCompacts,
      supply.compactAt placeholders compacts ≠
        supply.placeholderAt otherPlaceholders otherCompacts := by
    intro placeholders compacts otherPlaceholders otherCompacts same
    have letter := congrArg (fun id => id.toList.head?) same
    cases compacts with
    | zero => simp [supply, IdSupply.numbered] at letter
    | succ compacts => simp [supply, IdSupply.numbered] at letter
  have outcome : (document.materializeId bullet).map (fun done => (done.1, done.2.1.bullets)) =
      .ok ("", [{ bullet with explicitId := some "" }]) := by decide +kernel
  refine ⟨⟨⟨by decide +kernel, by decide +kernel, by decide +kernel⟩, by decide +kernel⟩,
    noPlaceholder, bullet, by decide +kernel, ?_⟩
  cases named : document.materializeId bullet with
  | error error =>
    rw [named] at outcome
    exact absurd outcome (by simp [Except.map])
  | ok done =>
    obtain ⟨id, later, events⟩ := done
    rw [named] at outcome
    obtain ⟨rfl, bullets⟩ := Prod.mk.inj (Except.ok.inj outcome)
    refine ⟨later, events, rfl, fun ⟨before, after, built, builtAfter, grown⟩ => ?_⟩
    have forest := grown.forest
    rw [Graph.eq_ofBullets_of_build built, Graph.eq_ofBullets_of_build builtAfter] at forest
    have ids := congrArg (fun forest => forest.toList.map Node.id) forest
    rw [show bulletsOf later.lines = _ from bullets] at ids
    exact absurd ids (by decide +kernel)

end Document

end OutlineDiagram
