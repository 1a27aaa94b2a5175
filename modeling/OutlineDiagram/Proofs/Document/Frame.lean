/-
This file proves what edits leave alone. One document is edited from another when
their entries agree one by one up to the metadata of lines that count as edited,
and when every id that was written anew is one that the supply hands out. That is
a preorder which every single change of a line respects. Each operation is made of
such changes, and so is each session of operations.
-/

import Mathlib.Data.List.Forall2
import OutlineDiagram.Document.Edit
import OutlineDiagram.Proofs.Line.Rewrite

namespace OutlineDiagram

/-! ### The frame of a line -/

namespace Line

/-- The line with nothing in its metadata: what edits do not reach. -/
def withoutMetadata (line : Line) : Line := { line with toMetadata := {} }

theorem text_eq_of_withoutMetadata {later first : Line}
    (frame : later.withoutMetadata = first.withoutMetadata) : later.text = first.text :=
  (Line.mk.inj frame).2.1

theorem hasSection_eq_of_withoutMetadata {later first : Line}
    (frame : later.withoutMetadata = first.withoutMetadata) :
    later.hasSection = first.hasSection := by
  have same := congrArg Line.hasSection frame
  exact same

theorem withoutMetadata_withVisibility (visibility : Visibility) (isParent : Bool) (line : Line) :
    (line.withVisibility visibility isParent).withoutMetadata = line.withoutMetadata := rfl

end Line

/-! ### Edited documents -/

/-- The id is one of those that the supply gives to bullets. -/
def IdSupply.HandsOut (supply : IdSupply) (id : String) : Prop :=
  ∃ placeholders compacts, supply.compactAt placeholders compacts = id

/-- What may have become of an entry: it is the same, or it counts as edited and differs in the
metadata only, where a new own id is one of the drawn ones. -/
inductive Entry.EditedFrom (drawn : String → Prop) : Entry → Entry → Prop where
  /-- The entry was left alone. -/
  | kept (entry : Entry) : EditedFrom drawn entry entry
  /-- The metadata of the line may have changed. -/
  | changed {later first : Line} {wasEdited : Bool}
    (frame : later.withoutMetadata = first.withoutMetadata)
    (name : ∀ id, later.explicitId = some id → first.explicitId = some id ∨ drawn id) :
    EditedFrom drawn (.parsed later true) (.parsed first wasEdited)

theorem Entry.EditedFrom.trans {drawn : String → Prop} {last later first : Entry}
    (second : last.EditedFrom drawn later) (start : later.EditedFrom drawn first) :
    last.EditedFrom drawn first := by
  cases second with
  | kept => exact start
  | changed secondFrame secondName =>
    cases start with
    | kept => exact .changed secondFrame secondName
    | changed startFrame startName =>
      refine .changed (secondFrame.trans startFrame) fun id same => ?_
      rcases secondName id same with before | isDrawn
      · exact startName id before
      · exact Or.inr isDrawn

/-- A document that edits may have made of another one. -/
structure Document.EditedFrom (later first : Document) : Prop where
  /-- The entries were edited one by one. -/
  entries : List.Forall₂ (Entry.EditedFrom first.supply.HandsOut) later.entries first.entries
  /-- The supply hands out the same ids. -/
  compactAt : later.supply.compactAt = first.supply.compactAt
  /-- The end of the text is the same. -/
  endsWithNewline : later.endsWithNewline = first.endsWithNewline

namespace Document.EditedFrom

theorem refl (document : Document) : document.EditedFrom document where
  entries := List.forall₂_same.mpr fun entry _ => .kept entry
  compactAt := rfl
  endsWithNewline := rfl

theorem handsOut_eq {later first : IdSupply} (same : later.compactAt = first.compactAt) :
    later.HandsOut = first.HandsOut := by
  funext id
  rw [IdSupply.HandsOut, IdSupply.HandsOut, same]

theorem trans {last later first : Document} (second : last.EditedFrom later)
    (start : later.EditedFrom first) : last.EditedFrom first where
  entries := by
    have secondEntries := second.entries
    rw [handsOut_eq start.compactAt] at secondEntries
    have chain : ∀ {lasts laters firsts : List Entry},
        List.Forall₂ (Entry.EditedFrom first.supply.HandsOut) lasts laters →
        List.Forall₂ (Entry.EditedFrom first.supply.HandsOut) laters firsts →
        List.Forall₂ (Entry.EditedFrom first.supply.HandsOut) lasts firsts := by
      intro lasts laters firsts seconds
      induction seconds generalizing firsts with
      | nil => exact id
      | cons head _ inductionHypothesis =>
        rintro (_ | ⟨start, starts⟩)
        exact .cons (head.trans start) (inductionHypothesis starts)
    exact chain secondEntries start.entries
  compactAt := second.compactAt.trans start.compactAt
  endsWithNewline := second.endsWithNewline.trans start.endsWithNewline

/-- A run of steps edits a document when each step does. -/
theorem foldl {Target : Type} {step : Document → Target → Document}
    (each : ∀ document target, (step document target).EditedFrom document)
    (targets : List Target) (document : Document) :
    (targets.foldl step document).EditedFrom document := by
  induction targets generalizing document with
  | nil => exact refl document
  | cons target rest inductionHypothesis =>
    exact (inductionHypothesis (step document target)).trans (each document target)

end Document.EditedFrom

namespace Document

/-! ### Single changes -/

theorem editedFrom_changeLine (index : Int) (change : Line → Line) (document : Document)
    (frame : ∀ line, (change line).withoutMetadata = line.withoutMetadata)
    (name : ∀ line id, (change line).explicitId = some id →
      line.explicitId = some id ∨ document.supply.HandsOut id) :
    (document.changeLine index change).EditedFrom document where
  entries := by
    refine List.forall₂_map_left_iff.mpr (List.forall₂_same.mpr fun entry _ => ?_)
    cases entry with
    | blank text => exact .kept _
    | script text => exact .kept _
    | parsed line isEdited =>
      rw [changeEntry]
      split
      · exact .changed (frame line) (name line)
      · exact .kept _
  compactAt := rfl
  endsWithNewline := rfl

theorem editedFrom_setVisibility (visibility : Visibility) (leaveHidden : Bool) (index : Int)
    (document : Document) :
    (document.setVisibility visibility leaveHidden index).EditedFrom document := by
  rw [setVisibility]
  split
  · exact .refl document
  · next line _ =>
    split
    · exact .refl document
    · exact editedFrom_changeLine index _ document
        (Line.withoutMetadata_withVisibility visibility _) fun _ _ => Or.inl

theorem editedFrom_setVisibilities (visibility : Visibility) (leaveHidden : Bool)
    (targets : List Line) (document : Document) :
    (document.setVisibilities visibility leaveHidden targets).EditedFrom document := by
  refine EditedFrom.foldl (fun sofar line => ?_) targets document
  exact editedFrom_setVisibility visibility leaveHidden line.index sofar

theorem editedFrom_highlight (toggle : Bool) (index : Int) (document : Document) :
    (document.highlight toggle index).EditedFrom document :=
  editedFrom_changeLine index _ document (fun _ => rfl) fun _ _ => Or.inl

theorem editedFrom_unhideBelow (line : Line) (document : Document) :
    (document.unhideBelow line).EditedFrom document := by
  rw [unhideBelow]
  refine (editedFrom_setVisibilities .normal false _ _).trans ?_
  split
  · exact editedFrom_setVisibility .normal false line.index document
  · exact .refl document

theorem editedFrom_reveal (line : Line) (document : Document) :
    (document.reveal line).EditedFrom document :=
  ((editedFrom_unhideBelow line _).trans (editedFrom_setVisibility .fold false line.index _)).trans
    (editedFrom_setVisibilities .normal false _ document)

theorem editedFrom_connect (withAncestors : Bool) (line : Line) (document : Document) :
    (document.connect withAncestors line).EditedFrom document :=
  (editedFrom_highlight false line.index _).trans
    ((EditedFrom.foldl (fun sofar other => editedFrom_reveal other sofar) _ _).trans
      (editedFrom_reveal line document))

/-! ### Passes over the document -/

/-- A pass that pushes visibility down changes a line only by setting its visibility. -/
theorem exists_of_visit {isParent : Bool} {line changed : Line} {marks : OpenMarks}
    (visited : (marks.visit isParent line).1 = some changed) :
    ∃ visibility, changed = line.withVisibility visibility isParent := by
  rw [OpenMarks.visit] at visited
  split at visited
  · split at visited
    · exact ⟨.hide, (Option.some.inj visited).symm⟩
    · exact absurd visited (by simp)
  · split at visited
    · split at visited
      · exact absurd visited (by simp)
      · exact ⟨.foldHidden, (Option.some.inj visited).symm⟩
    · split at visited
      · exact absurd visited (by simp)
      · exact absurd visited (by simp)
      · exact absurd visited (by simp)
      · exact ⟨.fold, (Option.some.inj visited).symm⟩

theorem editedFrom_propagateEntries (drawn : String → Prop) (marks : OpenMarks)
    (entries : List Entry) :
    List.Forall₂ (Entry.EditedFrom drawn) (propagateEntries marks entries) entries := by
  induction entries generalizing marks with
  | nil => exact .nil
  | cons entry rest inductionHypothesis =>
    cases entry with
    | blank text => exact .cons (.kept _) (inductionHypothesis marks)
    | script text => exact .cons (.kept _) (inductionHypothesis marks)
    | parsed line isEdited =>
      rw [propagateEntries]
      split
      · refine .cons ?_ (inductionHypothesis _)
        split
        · next changed visited =>
          obtain ⟨visibility, rfl⟩ := exists_of_visit visited
          exact .changed rfl fun _ => Or.inl
        · exact .kept _
      · exact .cons (.kept _) (inductionHypothesis marks)

theorem editedFrom_propagateVisibility (document : Document) :
    document.propagateVisibility.EditedFrom document where
  entries := editedFrom_propagateEntries _ {} document.entries
  compactAt := rfl
  endsWithNewline := rfl

theorem editedFrom_cleanupIds (document : Document) : document.cleanupIds.EditedFrom document where
  entries := by
    refine List.forall₂_map_left_iff.mpr (List.forall₂_same.mpr fun entry _ => ?_)
    cases entry with
    | blank text => exact .kept _
    | script text => exact .kept _
    | parsed line isEdited =>
      rw [cleanEntry]
      split
      · refine .changed rfl fun id same => Or.inl ?_
        exact (Option.filter_eq_some_iff.mp same).1
      · exact .kept _
  compactAt := rfl
  endsWithNewline := rfl

/-! ### Drawn ids -/

/-- An id that is drawn is handed out, and drawing it leaves the later draws as they were. -/
theorem handsOut_of_drawFresh {taken : List String} {tries : Nat} {supply later : IdSupply}
    {id : String} (drawn : supply.drawFresh taken tries = some (id, later)) :
    supply.HandsOut id ∧ later.compactAt = supply.compactAt := by
  induction tries generalizing supply with
  | zero => simp [IdSupply.drawFresh] at drawn
  | succ tries inductionHypothesis =>
    rw [IdSupply.drawFresh] at drawn
    split at drawn
    · obtain ⟨handed, same⟩ := inductionHypothesis drawn
      exact ⟨handed, same⟩
    · obtain ⟨rfl, rfl⟩ := Prod.mk.inj (Option.some.inj drawn)
      exact ⟨⟨_, _, rfl⟩, rfl⟩

theorem editedFrom_materializeId {line : Line} {document later : Document} {id : String}
    {events : List Event} (named : document.materializeId line = .ok (id, later, events)) :
    later.EditedFrom document := by
  rw [materializeId] at named
  split at named
  · obtain ⟨-, rest⟩ := Prod.mk.inj (Except.ok.inj named)
    rw [← (Prod.mk.inj rest).1]
    exact .refl document
  · dsimp only at named
    split at named
    · exact absurd named (by simp)
    · next drawnId supply drawn =>
      obtain ⟨-, rest⟩ := Prod.mk.inj (Except.ok.inj named)
      obtain ⟨handed, same⟩ := handsOut_of_drawFresh drawn
      have changed := editedFrom_changeLine line.index
        (fun now => { now with explicitId := some drawnId }) document (fun _ => rfl)
        fun _ other equal => Or.inr (Option.some.inj equal ▸ handed)
      rw [← (Prod.mk.inj rest).1]
      exact ⟨changed.entries, same, rfl⟩

/-- Linking gives ids to both bullets, the target first, and then it writes the link unless that is
there. -/
theorem link_cases {source target : Line} {document later : Document} {events : List Event}
    (linked : document.link source target = .ok (later, events)) :
    ∃ id withTarget targetEvents sourceId withSource sourceEvents,
      document.materializeId target = .ok (id, withTarget, targetEvents) ∧
        withTarget.materializeId ((withTarget.lineAt? source.index).getD source) =
          .ok (sourceId, withSource, sourceEvents) ∧
        later = if ((withTarget.lineAt? source.index).getD source).idsOut.contains id
          then withSource else withSource.changeLine source.index fun now =>
            { now with idsOut := now.idsOut ++ [id] } := by
  rw [link] at linked
  cases targetNamed : document.materializeId target with
  | error error => simp [targetNamed, bind, Except.bind] at linked
  | ok named =>
    obtain ⟨id, withTarget, targetEvents⟩ := named
    simp only [targetNamed, bind, Except.bind] at linked
    cases sourceNamed :
        withTarget.materializeId ((withTarget.lineAt? source.index).getD source) with
    | error error => simp [sourceNamed] at linked
    | ok namedSource =>
      obtain ⟨sourceId, withSource, sourceEvents⟩ := namedSource
      simp only [sourceNamed] at linked
      refine ⟨id, withTarget, targetEvents, sourceId, withSource, sourceEvents, rfl, sourceNamed,
        ?_⟩
      split at linked
      · next found => rw [if_pos found, (Prod.mk.inj (Except.ok.inj linked)).1]
      · next absent => rw [if_neg absent, ← (Prod.mk.inj (Except.ok.inj linked)).1]

theorem editedFrom_link {source target : Line} {document later : Document} {events : List Event}
    (linked : document.link source target = .ok (later, events)) : later.EditedFrom document := by
  obtain ⟨id, withTarget, _, _, withSource, _, targetNamed, sourceNamed, rfl⟩ := link_cases linked
  have both := (editedFrom_materializeId sourceNamed).trans (editedFrom_materializeId targetNamed)
  split
  · exact both
  · exact (editedFrom_changeLine source.index
      (fun now => { now with idsOut := now.idsOut ++ [id] }) withSource (fun _ => rfl)
      fun _ _ => Or.inl).trans both

end Document

/-! ### All edits -/

theorem LineEdit.editedFrom_apply (edit : LineEdit) (bullet : Line) (document : Document) :
    (edit.apply bullet document).EditedFrom document := by
  cases edit with
  | setVisibility visibility leaveHidden =>
    exact document.editedFrom_setVisibility visibility leaveHidden bullet.index
  | fold => exact document.editedFrom_setVisibility .fold true bullet.index
  | unfold => exact document.editedFrom_setVisibility .normal true bullet.index
  | hide => exact document.editedFrom_setVisibility .hide false bullet.index
  | unhide => exact document.editedFrom_setVisibility .normal false bullet.index
  | foldChildren => exact document.editedFrom_setVisibilities .fold true _
  | unfoldChildren => exact document.editedFrom_setVisibilities .normal true _
  | hideChildren => exact document.editedFrom_setVisibilities .hide false _
  | unhideChildren => exact document.editedFrom_unhideBelow bullet
  | highlight toggle => exact document.editedFrom_highlight toggle bullet.index
  | reveal highlighted =>
    rw [LineEdit.apply]
    split
    · exact (Document.editedFrom_highlight false bullet.index _).trans
        (document.editedFrom_reveal bullet)
    · exact document.editedFrom_reveal bullet
  | connect withAncestors => exact document.editedFrom_connect withAncestors bullet
  | markEdited =>
    exact document.editedFrom_changeLine bullet.index id (fun _ => rfl) fun _ _ => Or.inl

theorem WholeEdit.editedFrom_apply (edit : WholeEdit) (document : Document) :
    (edit.apply document).EditedFrom document := by
  cases edit with
  | foldAll => exact document.editedFrom_setVisibilities .fold true _
  | unfoldAll => exact document.editedFrom_setVisibilities .normal true _
  | hideAll => exact document.editedFrom_setVisibilities .hide false _
  | unhideAll => exact document.editedFrom_setVisibilities .normal false _
  | propagateVisibility => exact document.editedFrom_propagateVisibility

namespace Edit

variable {document : Document} {done : Document × List Event}

theorem exists_of_apply_line {edit : LineEdit} {number : Int}
    (made : (line edit number).apply document = .ok done) :
    ∃ bullet, document.bulletOn number = .ok bullet ∧ done = (edit.apply bullet document, []) := by
  simp only [apply, bind, Except.bind] at made
  split at made
  · cases made
  · next bullet found => exact ⟨bullet, found, (Except.ok.inj made).symm⟩

theorem exists_of_apply_materializeId {number : Int}
    (made : (materializeId number).apply document = .ok done) :
    ∃ bullet id, document.bulletOn number = .ok bullet ∧
      document.materializeId bullet = .ok (id, done) := by
  simp only [apply, bind, Except.bind] at made
  split at made
  · cases made
  · next bullet found =>
    split at made
    · cases made
    · next named isNamed =>
      obtain rfl := Except.ok.inj made
      exact ⟨bullet, named.1, found, isNamed⟩

theorem exists_of_apply_link {source target : Int}
    (made : (link source target).apply document = .ok done) :
    ∃ sourceBullet targetBullet, document.bulletOn source = .ok sourceBullet ∧
      document.bulletOn target = .ok targetBullet ∧
      document.link sourceBullet targetBullet = .ok done := by
  simp only [apply, bind, Except.bind] at made
  split at made
  · cases made
  · next sourceBullet isSource =>
    split at made
    · cases made
    · next targetBullet isTarget => exact ⟨sourceBullet, targetBullet, isSource, isTarget, made⟩

theorem editedFrom_apply {edit : Edit} {later : Document} {events : List Event}
    (done : edit.apply document = .ok (later, events)) : later.EditedFrom document := by
  cases edit with
  | line edit number =>
    obtain ⟨bullet, -, same⟩ := exists_of_apply_line done
    rw [(Prod.mk.inj same).1]
    exact edit.editedFrom_apply bullet document
  | whole edit =>
    rw [← (Prod.mk.inj (Except.ok.inj done)).1]
    exact edit.editedFrom_apply document
  | materializeId number =>
    obtain ⟨_, _, -, named⟩ := exists_of_apply_materializeId done
    exact Document.editedFrom_materializeId named
  | link source target =>
    obtain ⟨_, _, -, -, linked⟩ := exists_of_apply_link done
    exact Document.editedFrom_link linked
  | cleanupIds =>
    rw [← (Prod.mk.inj (Except.ok.inj done)).1]
    exact document.editedFrom_cleanupIds

end Edit

end OutlineDiagram
