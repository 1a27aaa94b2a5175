/-
This file says when the ids of a document tell its bullets apart, and proves that
the graph then follows a change of names. A placeholder is then nobody else's name,
so a link always means a bullet that declares its id, if it means one at all.
-/

import OutlineDiagram.Document.Id
import OutlineDiagram.Proofs.Graph.Renamed

namespace OutlineDiagram

/-- The bullets of a document are well indented, no two share an id, and no placeholder is
written as an id or in a link. -/
structure Document.KeepsApart (document : Document) : Prop where
  /-- No bullet is indented too far. -/
  legal : firstBadIndent? 0 document.bullets = none
  /-- No two bullets share an id. -/
  distinct : (document.bullets.map Line.id).Nodup
  /-- No written id or link is a placeholder. -/
  unwritten : ∀ bullet ∈ document.bullets, ∀ other ∈ document.bullets,
    bullet.ownId? ≠ some other.placeholderId ∧ other.placeholderId ∉ bullet.linkIds

/-- The ids of a document tell its bullets apart, and each of them names its bullet: no placeholder
is empty, as the empty id is nobody's. -/
structure Document.TellsApart (document : Document) : Prop extends document.KeepsApart where
  /-- No placeholder is empty. -/
  named : ∀ bullet ∈ document.bullets, bullet.placeholderId ≠ ""

/-- Placeholders with a running number, after an empty one. -/
def IdSupply.numberedAfterEmpty : IdSupply :=
  { IdSupply.numbered [] with
    placeholderAt := fun placeholders _ =>
      if placeholders = 0 then "" else "ph_" ++ toString placeholders }

theorem Line.ownId?_ne_empty {line : Line} {id : String} (own : line.ownId? = some id) :
    id ≠ "" := by simpa using (Option.filter_eq_some_iff.mp own).2

/-- A bullet goes by its written id or by its placeholder. -/
theorem Line.id_cases (line : Line) :
    line.ownId? = some line.id ∨ line.ownId? = none ∧ line.id = line.placeholderId := by
  cases own : line.ownId? with
  | none => exact Or.inr ⟨rfl, by rw [Line.id, own, Option.getD_none]⟩
  | some id => exact Or.inl (by rw [Line.id_of_ownId? own])

namespace Document

theorem TellsApart.id_ne_empty {document : Document} (apart : document.TellsApart) {bullet : Line}
    (member : bullet ∈ document.bullets) : bullet.id ≠ "" := by
  rcases bullet.id_cases with own | ⟨-, placeholder⟩
  · exact Line.ownId?_ne_empty own
  · rw [placeholder]
    exact apart.named bullet member

namespace KeepsApart

variable {document : Document} (apart : document.KeepsApart)

include apart

theorem eq_of_id_eq {bullet other : Line} (member : bullet ∈ document.bullets)
    (otherMember : other ∈ document.bullets) (same : bullet.id = other.id) : bullet = other :=
  List.inj_on_of_nodup_map apart.distinct member otherMember same

/-- A link that names a bullet names the id written for it. -/
theorem ownId?_of_mem_linkIds {bullet other : Line} (member : bullet ∈ document.bullets)
    (otherMember : other ∈ document.bullets) (links : other.id ∈ bullet.linkIds) :
    other.ownId? = some other.id := by
  rcases other.id_cases with own | ⟨-, placeholder⟩
  · exact own
  · rw [placeholder] at links
    exact absurd links (apart.unwritten bullet member other otherMember).2

section Changed

variable {later : Document} {change : Line → Line}
  (frame : ∀ line, (change line).withoutIds = line.withoutIds)
  (bullets : later.bullets = document.bullets.map change)

include frame bullets

theorem legal_of_bullets_eq : firstBadIndent? 0 later.bullets = none := by
  rw [bullets, firstBadIndent?_map frame, apart.legal]

/-- Where the bullets and their links go with new names, the graph is the old one under them. -/
theorem renamedFrom {rename : String → String} {stays : String → Bool}
    (distinct : (later.bullets.map Line.id).Nodup) (keepsEmpty : ∀ id, rename id = "" ↔ id = "")
    (renamed : ∀ bullet ∈ document.bullets, (change bullet).RenamedFrom bullet rename stays) :
    (Graph.ofBullets later.bullets).RenamedFrom (Graph.ofBullets document.bullets) rename
      (((Graph.ofBullets document.bullets).links.edges.filter fun edge =>
        stays edge.source && stays edge.destination).map (Edge.renamed rename)) := by
  rw [bullets] at distinct ⊢
  exact renamedFrom_ofBullets_filter frame apart.distinct distinct keepsEmpty renamed

end Changed

end KeepsApart

end Document

end OutlineDiagram
