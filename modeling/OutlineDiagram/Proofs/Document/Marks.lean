/-
This file follows the visibility of each bullet through the edits that reveal
bullets. These edits leave everything else that decides what is above and below a
bullet as it was, so all of them can be told as changes of one function from
positions to visibilities. Revealing a bullet opens what is above it, folds the
bullet and shows what is below it.
-/

import OutlineDiagram.Proofs.Document.Link
import OutlineDiagram.Proofs.Document.Outermost

namespace OutlineDiagram

/-- The line without its visibility and its highlight. -/
def Line.unmarked (line : Line) : Line :=
  { line with visibility := .normal, isHighlighted := false }

namespace Line

variable {later first : Line} (same : later.unmarked = first.unmarked)

include same

theorem index_eq_of_unmarked : later.index = first.index := by
  have equal := congrArg Line.index same
  exact equal

theorem depth_eq_of_unmarked : later.depth = first.depth := by
  have equal := congrArg Line.depth same
  exact equal

theorem id_eq_of_unmarked : later.id = first.id := by
  have equal := congrArg Line.id same
  exact equal

theorem isBullet_eq_of_unmarked : later.isBullet = first.isBullet := by
  have equal := congrArg Line.isBullet same
  exact equal

theorem linkIds_eq_of_unmarked : later.linkIds = first.linkIds := by
  have equal := congrArg (fun line : Line => line.linkIds) same
  exact equal

end Line

/-! ### Lists of unmarked lines -/

theorem bulletsOf_map_unmarked (lines : List Line) :
    bulletsOf (lines.map Line.unmarked) = (bulletsOf lines).map Line.unmarked :=
  List.filter_map

theorem startsDeeper_map_unmarked (depth : Int) (following : List Line) :
    startsDeeper depth (following.map Line.unmarked) = startsDeeper depth following := by
  rw [startsDeeper, startsDeeper, bulletsOf_map_unmarked]
  cases bulletsOf following <;> rfl

theorem deeperRun_map_unmarked (depth : Int) (following : List Line) :
    deeperRun depth (following.map Line.unmarked) =
      (deeperRun depth following).map Line.unmarked := by
  rw [deeperRun, deeperRun, bulletsOf_map_unmarked]
  exact List.takeWhile_map ..

/-- A chain of lines with other marks is the chain with these marks. -/
theorem shallowerChain_map {change : Line → Line}
    (keeps : ∀ line, (change line).unmarked = line.unmarked) (depth : Int) (before : List Line) :
    shallowerChain depth (before.map change) = (shallowerChain depth before).map change := by
  induction before generalizing depth with
  | nil => rfl
  | cons line rest inductionHypothesis =>
    rw [List.map_cons, shallowerChain, shallowerChain, inductionHypothesis, inductionHypothesis,
      Line.isBullet_eq_of_unmarked (keeps line), Line.depth_eq_of_unmarked (keeps line)]
    split <;> rfl

namespace Document

variable {document later first : Document}

/-! ### Documents with other marks -/

section Frame

variable (frame : later.lines.map Line.unmarked = first.lines.map Line.unmarked) (line : Line)

include frame

theorem map_linesBefore_of_frame :
    (later.linesBefore line).map Line.unmarked = (first.linesBefore line).map Line.unmarked := by
  have cut : ∀ document : Document, (document.linesBefore line).map Line.unmarked =
      (document.lines.map Line.unmarked).takeWhile fun other => other.index != line.index := by
    intro document
    rw [List.takeWhile_map]
    rfl
  rw [cut, cut, frame]

theorem map_linesAfter_of_frame :
    (later.linesAfter line).map Line.unmarked = (first.linesAfter line).map Line.unmarked := by
  have cut : ∀ document : Document, (document.linesAfter line).map Line.unmarked =
      ((document.lines.map Line.unmarked).dropWhile fun other => other.index != line.index).drop
        1 := by
    intro document
    rw [linesAfter, List.map_drop, List.dropWhile_map]
    rfl
  rw [cut, cut, frame]

theorem map_ancestors_of_frame :
    (later.ancestors line).map Line.unmarked = (first.ancestors line).map Line.unmarked := by
  have keeps : ∀ line : Line, line.unmarked.unmarked = line.unmarked := fun _ => rfl
  rw [ancestors, ancestors, ← shallowerChain_map keeps, ← shallowerChain_map keeps,
    List.map_reverse, List.map_reverse, map_linesBefore_of_frame frame]

theorem map_descendants_of_frame :
    (later.descendants line).map Line.unmarked = (first.descendants line).map Line.unmarked := by
  rw [descendants, descendants, ← deeperRun_map_unmarked, ← deeperRun_map_unmarked,
    map_linesAfter_of_frame frame]

theorem isParent_of_frame : later.isParent line = first.isParent line := by
  rw [isParent, isParent, ← startsDeeper_map_unmarked, map_linesAfter_of_frame frame,
    startsDeeper_map_unmarked]

theorem map_index_ancestors_of_frame :
    (later.ancestors line).map Line.index = (first.ancestors line).map Line.index := by
  have same := congrArg (List.map Line.index) (map_ancestors_of_frame frame line)
  rwa [List.map_map, List.map_map] at same

theorem map_index_descendants_of_frame :
    (later.descendants line).map Line.index = (first.descendants line).map Line.index := by
  have same := congrArg (List.map Line.index) (map_descendants_of_frame frame line)
  rwa [List.map_map, List.map_map] at same

theorem map_bullets_of_frame :
    later.bullets.map Line.unmarked = first.bullets.map Line.unmarked := by
  rw [bullets, ← bulletsOf_map_unmarked, frame, bulletsOf_map_unmarked, bullets]

theorem exists_mem_bullets_of_frame {bullet : Line} (member : bullet ∈ first.bullets) :
    ∃ now ∈ later.bullets, now.unmarked = bullet.unmarked := by
  have listed : bullet.unmarked ∈ first.bullets.map Line.unmarked := List.mem_map_of_mem member
  rw [← map_bullets_of_frame frame] at listed
  exact List.mem_map.mp listed

theorem isPlaced_of_frame (placed : first.IsPlaced) : later.IsPlaced := by
  have indexes := congrArg (List.map Line.index) frame
  rw [List.map_map, List.map_map] at indexes
  exact (congrArg List.Nodup indexes).mpr placed

end Frame

/-- What is around a line depends on its position and its depth only. -/
theorem ancestors_eq_of_unmarked {line other : Line} (same : line.unmarked = other.unmarked) :
    document.ancestors line = document.ancestors other := by
  rw [ancestors, ancestors, linesBefore, linesBefore, Line.index_eq_of_unmarked same,
    Line.depth_eq_of_unmarked same]

theorem descendants_eq_of_unmarked {line other : Line} (same : line.unmarked = other.unmarked) :
    document.descendants line = document.descendants other := by
  rw [descendants, descendants, linesAfter, linesAfter, Line.index_eq_of_unmarked same,
    Line.depth_eq_of_unmarked same]

theorem isParent_eq_of_unmarked {line other : Line} (same : line.unmarked = other.unmarked) :
    document.isParent line = document.isParent other := by
  rw [isParent, isParent, linesAfter, linesAfter, Line.index_eq_of_unmarked same,
    Line.depth_eq_of_unmarked same]

/-- One document is another one with other marks, among them the given visibility at each
position. -/
structure MarkedBy (marks : Int → Visibility) (later first : Document) : Prop where
  /-- The lines agree in everything but their marks. -/
  frame : later.lines.map Line.unmarked = first.lines.map Line.unmarked
  /-- The visibility of each line is the given one. -/
  visibility_eq : ∀ line ∈ later.lines, line.visibility = marks line.index

/-- The visibilities after one was set at a bullet. On request a hidden bullet is left alone. -/
def setMarks (document : Document) (visibility : Visibility) (leaveHidden : Bool) (bullet : Line)
    (marks : Int → Visibility) : Int → Visibility :=
  if leaveHidden = true ∧ marks bullet.index = .hide then marks
  else Function.update marks bullet.index
    (if visibility = .fold ∧ document.isParent bullet = false then .normal else visibility)

/-- The visibilities after a bullet was revealed. -/
def revealedMarks (document : Document) (bullet : Line) (marks : Int → Visibility) :
    Int → Visibility := fun index =>
  if index ∈ (document.descendants bullet).map Line.index then .normal
  else if index = bullet.index then if document.isParent bullet then .fold else .normal
  else if index ∈ (document.ancestors bullet).map Line.index then .normal
  else marks index

namespace MarkedBy

variable {marks : Int → Visibility}

theorem of_placed {document : Document} (placed : document.IsPlaced) :
    ∃ marks, document.MarkedBy marks document := by
  refine ⟨fun index => ((document.lineAt? index).map fun line => line.visibility).getD .normal,
    rfl, fun line member => ?_⟩
  rw [placed.lineAt?_of_mem member]
  rfl

theorem bullet_visibility (marked : later.MarkedBy marks first) {bullet : Line}
    (member : bullet ∈ later.bullets) : bullet.visibility = marks bullet.index :=
  marked.visibility_eq bullet (List.mem_filter.mp member).1

/-- Setting a visibility at a position changes the marks there and nowhere else. -/
theorem changeLine (marked : later.MarkedBy marks first) (index : Int) (visibility : Visibility)
    (isParent : Bool) :
    (later.changeLine index (Line.withVisibility visibility isParent)).MarkedBy
      (Function.update marks index
        (if visibility = .fold ∧ isParent = false then .normal else visibility)) first where
  frame := by
    rw [← marked.frame, lines_changeLine, List.map_map]
    refine List.map_congr_left fun line _ => ?_
    rw [Function.comp_apply, Line.changeAt]
    split <;> rfl
  visibility_eq := by
    rw [lines_changeLine, List.forall_mem_map]
    intro line member
    by_cases here : line.index = index
    · subst here
      rw [Line.changeAt_self]
      exact (Function.update_self line.index _ marks).symm
    · rw [Line.changeAt_of_ne here, Function.update_of_ne here]
      exact marked.visibility_eq line member

theorem setNormal (marked : later.MarkedBy marks first) (index : Int) :
    (later.setVisibility .normal false index).MarkedBy (Function.update marks index .normal)
      first := by
  rw [setVisibility]
  cases found : later.lineAt? index with
  | none =>
    refine ⟨marked.frame, fun line member => ?_⟩
    have elsewhere : line.index ≠ index := fun here =>
      absurd (beq_iff_eq.mpr here) (List.find?_eq_none.mp found line member)
    rw [Function.update_of_ne elsewhere]
    exact marked.visibility_eq line member
  | some line => exact marked.changeLine index .normal _

theorem congr {others : Int → Visibility} (marked : later.MarkedBy marks first)
    (same : ∀ index, marks index = others index) : later.MarkedBy others first :=
  funext same ▸ marked

theorem setNormals (marked : later.MarkedBy marks first) (targets : List Line) :
    (later.setVisibilities .normal false targets).MarkedBy
      (fun index => if index ∈ targets.map Line.index then .normal else marks index) first := by
  induction targets generalizing later marks with
  | nil => exact marked
  | cons target rest inductionHypothesis =>
    refine (inductionHypothesis (marked.setNormal target.index)).congr fun index => ?_
    have member : index ∈ (target :: rest).map Line.index ↔
        index = target.index ∨ index ∈ rest.map Line.index := List.mem_cons
    by_cases here : index = target.index
    · rw [if_pos (member.mpr (Or.inl here)), here, Function.update_self, ite_self]
    · rw [Function.update_of_ne here]
      exact if_congr (member.trans (or_iff_right here)).symm rfl rfl

/-- Setting a visibility at a bullet changes its mark, unless it is hidden and that is left alone. -/
theorem setAt (marked : later.MarkedBy marks first) (placed : first.IsPlaced) {bullet : Line}
    (member : bullet ∈ first.bullets) (visibility : Visibility) (leaveHidden : Bool) :
    (later.setVisibility visibility leaveHidden bullet.index).MarkedBy
      (first.setMarks visibility leaveHidden bullet marks) first := by
  obtain ⟨now, inside, same⟩ := exists_mem_bullets_of_frame marked.frame member
  have here : now.visibility = marks now.index := marked.bullet_visibility inside
  rw [setVisibility, setMarks, ← Line.index_eq_of_unmarked same,
    (isPlaced_of_frame marked.frame placed).lineAt?_eq inside]
  dsimp only
  rw [here, isParent_of_frame marked.frame, isParent_eq_of_unmarked same]
  by_cases left : leaveHidden = true ∧ marks now.index = .hide
  · rw [if_pos left, left.1, left.2]
    exact marked
  · have changes : ¬ (leaveHidden && marks now.index == .hide) = true := by
      rwa [Bool.and_eq_true, beq_iff_eq]
    rw [if_neg left, if_neg changes]
    exact marked.changeLine now.index visibility (first.isParent bullet)

theorem setFold (marked : later.MarkedBy marks first) (placed : first.IsPlaced) {bullet : Line}
    (member : bullet ∈ first.bullets) :
    (later.setVisibility .fold false bullet.index).MarkedBy
      (Function.update marks bullet.index (if first.isParent bullet then .fold else .normal))
      first := by
  refine (marked.setAt placed member .fold false).congr fun index => ?_
  rw [setMarks, if_neg fun left => Bool.false_ne_true left.1]
  cases first.isParent bullet <;> rfl

/-- Revealing a bullet opens what is above it, folds it and shows what is below it. -/
theorem reveal (marked : later.MarkedBy marks first) (placed : first.IsPlaced) {bullet : Line}
    (member : bullet ∈ first.bullets) :
    (later.reveal bullet).MarkedBy (first.revealedMarks bullet marks) first := by
  have opened := marked.setNormals (later.ancestors bullet)
  have folded := opened.setFold placed member
  rw [Document.reveal, unhideBelow]
  generalize (later.setVisibilities .normal false (later.ancestors bullet)).setVisibility .fold
    false bullet.index = middle at folded ⊢
  -- The bullet was folded just before, so it is not hidden.
  have shown : ((middle.lineAt? bullet.index).map fun now => now.visibility == .hide).getD false =
      false := by
    cases found : middle.lineAt? bullet.index with
    | none => rfl
    | some now =>
      have passes := List.find?_some found
      have here : now.index = bullet.index := eq_of_beq passes
      have visibility := folded.visibility_eq now (List.mem_of_find?_eq_some found)
      rw [here, Function.update_self] at visibility
      rw [Option.map_some, Option.getD_some, visibility]
      cases first.isParent bullet <;> rfl
  rw [shown]
  refine (folded.setNormals (middle.descendants bullet)).congr fun index => ?_
  rw [revealedMarks, map_index_descendants_of_frame folded.frame,
    map_index_ancestors_of_frame marked.frame]
  by_cases here : index = bullet.index
  · rw [here, Function.update_self, if_pos rfl]
  · rw [Function.update_of_ne here, if_neg here]

theorem reveals (marked : later.MarkedBy marks first) (placed : first.IsPlaced)
    {targets : List Line} (members : ∀ target ∈ targets, target ∈ first.bullets) :
    (targets.foldl (fun sofar target => sofar.reveal target) later).MarkedBy
      (targets.foldl (fun sofar target => first.revealedMarks target sofar) marks) first := by
  induction targets generalizing later marks with
  | nil => exact marked
  | cons target rest inductionHypothesis =>
    rw [List.forall_mem_cons] at members
    exact inductionHypothesis (marked.reveal placed members.1) members.2

theorem highlight (marked : later.MarkedBy marks first) (toggle : Bool) (index : Int) :
    (later.highlight toggle index).MarkedBy marks first where
  frame := by
    rw [← marked.frame, Document.highlight, lines_changeLine, List.map_map]
    refine List.map_congr_left fun line _ => ?_
    rw [Function.comp_apply, Line.changeAt]
    split <;> rfl
  visibility_eq := by
    rw [Document.highlight, lines_changeLine, List.forall_mem_map]
    intro line member
    have same := marked.visibility_eq line member
    rw [Line.changeAt]
    split <;> exact same

end MarkedBy

end Document

end OutlineDiagram
