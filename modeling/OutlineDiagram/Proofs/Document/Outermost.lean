/-
This file proves what pushing visibility down makes of each bullet of a document,
whatever its markers and its indentation are. The outermost marked bullet above a
bullet decides, and a bullet that has none above it keeps its marker, except that
nothing stays fold-hidden there. A bullet that was visited is left alone by a second
visit in the same place, so a second pass changes nothing.
-/

import OutlineDiagram.Proofs.Document.Family

namespace OutlineDiagram

/-! ### The outermost marked bullet -/

/-- The outermost marked bullet of a chain is the first one that is not normal on the way down. -/
theorem outermostMarked?_eq_find? (chain : List Line) :
    outermostMarked? chain = chain.reverse.find? fun above => above.visibility != .normal := by
  induction chain with
  | nil => rfl
  | cons line above inductionHypothesis =>
    rw [outermostMarked?, inductionHypothesis, List.reverse_cons, List.find?_append]
    cases visibility : line.visibility <;> simp [visibility]

namespace Line

variable {outermost : Line} (isParent : Bool) (line : Line)

theorem pushedDown_of_hide (hidden : outermost.visibility = .hide) :
    line.pushedDown (some outermost) isParent =
      { line with visibility := .hide, isHighlighted := false } := by
  rw [pushedDown, if_pos hidden, withVisibility]
  simp

theorem pushedDown_of_ne_hide (shown : outermost.visibility ≠ .hide) :
    line.pushedDown (some outermost) isParent =
      { line with visibility := if line.visibility = .hide then .hide else .foldHidden } := by
  rw [pushedDown, if_neg shown]
  by_cases gone : line.visibility = .foldHidden ∨ line.visibility = .hide
  · have kept : (if line.visibility = .hide then Visibility.hide else .foldHidden) =
        line.visibility := by
      rcases gone with same | same <;> simp [same]
    rw [if_pos gone, kept]
  · rw [if_neg gone, if_neg (fun same => gone (Or.inr same)), withVisibility]
    simp

theorem pushedDown_of_fold
    (folded : outermost.visibility = .fold ∨ outermost.visibility = .foldHidden) :
    line.pushedDown (some outermost) isParent =
      { line with visibility := if line.visibility = .hide then .hide else .foldHidden } := by
  refine pushedDown_of_ne_hide isParent line ?_
  rcases folded with same | same <;> simp [same]

theorem pushedDown_of_none :
    line.pushedDown none isParent =
      { line with
        visibility :=
          if line.visibility = .foldHidden then if isParent then .fold else .normal
          else line.visibility } := by
  rw [pushedDown]
  by_cases foldHidden : line.visibility = .foldHidden
  · rw [if_pos foldHidden, if_pos foldHidden, withVisibility]
    cases isParent <;> simp
  · rw [if_neg foldHidden, if_neg foldHidden]

end Line

/-! ### The second pass -/

/-- A bullet that a visit changed is left alone when it is visited in the same place again, and it
opens the same marks. -/
theorem OpenMarks.visit_of_visit {marks after : OpenMarks} {isParent : Bool} {line changed : Line}
    (visited : marks.visit isParent line = (some changed, after)) :
    marks.visit isParent changed = (none, after) := by
  rw [visit] at visited ⊢
  by_cases isHidden : marks.hideDepth?.isSome = true
  · rw [if_pos isHidden] at visited ⊢
    obtain ⟨changes, rfl⟩ := Prod.mk.inj visited
    obtain ⟨-, same⟩ := Option.ite_none_right_eq_some.mp changes
    obtain rfl := Option.some.inj same
    simp [Line.withVisibility]
  · rw [if_neg isHidden] at visited ⊢
    by_cases isFolded : marks.foldDepth?.isSome = true
    · rw [if_pos isFolded] at visited ⊢
      obtain ⟨changes, rfl⟩ := Prod.mk.inj visited
      obtain ⟨-, same⟩ := Option.ite_none_left_eq_some.mp changes
      obtain rfl := Option.some.inj same
      simp [Line.withVisibility]
    · -- Outside of all marks a visit changes a fold-hidden bullet only.
      rw [if_neg isFolded] at visited ⊢
      cases visibility : line.visibility with
      | foldHidden =>
        rw [visibility] at visited
        obtain ⟨changes, rfl⟩ := Prod.mk.inj visited
        obtain rfl := Option.some.inj changes
        cases isParent <;> rfl
      | _ =>
        rw [visibility] at visited
        exact absurd (congrArg Prod.fst visited) (Option.some_ne_none changed).symm

theorem OpenMarks.visit_getD_visit (marks : OpenMarks) (isParent : Bool) (line : Line) :
    marks.visit isParent ((marks.visit isParent line).1.getD line) =
      (none, (marks.visit isParent line).2) := by
  cases visited : (marks.visit isParent line).1 with
  | none => exact Prod.ext visited rfl
  | some changed => exact visit_of_visit (Prod.ext visited rfl)

theorem depth_getD_visit (marks : OpenMarks) (isParent : Bool) (line : Line) :
    ((marks.visit isParent line).1.getD line).depth = line.depth := by
  have same := congrArg Line.depth (withoutMetadata_getD_visit marks isParent line)
  exact same

theorem map_depth_propagateBullets (marks : OpenMarks) (bullets : List Line) :
    (propagateBullets marks bullets).map Line.depth = bullets.map Line.depth := by
  induction bullets generalizing marks with
  | nil => rfl
  | cons line rest inductionHypothesis =>
    rw [propagateBullets, List.map_cons, List.map_cons, depth_getD_visit, inductionHypothesis]

theorem startsDeeper_eq_any (depth : Int) (following : List Line) :
    startsDeeper depth following =
      (((bulletsOf following).map Line.depth).head?.any fun next => depth < next) := by
  rw [startsDeeper]
  cases bulletsOf following <;> rfl

/-- A pass moves no bullet, so the same bullets are parents after it. -/
theorem startsDeeper_propagateEntries (depth : Int) (marks : OpenMarks) (entries : List Entry) :
    startsDeeper depth ((propagateEntries marks entries).filterMap Entry.line?) =
      startsDeeper depth (entries.filterMap Entry.line?) := by
  rw [startsDeeper_eq_any, startsDeeper_eq_any, bulletsOf_propagateEntries,
    map_depth_propagateBullets]

/-- A second pass changes nothing. -/
theorem propagateEntries_propagateEntries (marks : OpenMarks) (entries : List Entry) :
    propagateEntries marks (propagateEntries marks entries) = propagateEntries marks entries := by
  induction entries generalizing marks with
  | nil => rfl
  | cons entry rest inductionHypothesis =>
    cases entry with
    | blank text => exact congrArg (Entry.blank text :: ·) (inductionHypothesis marks)
    | script text => exact congrArg (Entry.script text :: ·) (inductionHypothesis marks)
    | parsed line isEdited =>
      by_cases bullet : line.isBullet = true
      · have again := OpenMarks.visit_getD_visit (marks.reach line.depth)
          (startsDeeper line.depth (rest.filterMap Entry.line?)) line
        have isSame := isBullet_getD_visit (marks.reach line.depth)
          (startsDeeper line.depth (rest.filterMap Entry.line?)) line
        have depthSame := depth_getD_visit (marks.reach line.depth)
          (startsDeeper line.depth (rest.filterMap Entry.line?)) line
        rw [propagateEntries, if_pos bullet]
        dsimp only
        generalize (marks.reach line.depth).visit
          (startsDeeper line.depth (rest.filterMap Entry.line?)) line = visited at *
        cases changes : visited.1 with
        | none =>
          rw [changes, Option.getD_none] at again
          dsimp only
          rw [propagateEntries, if_pos bullet, startsDeeper_propagateEntries]
          dsimp only
          rw [again]
          exact congrArg _ (inductionHypothesis visited.2)
        | some changed =>
          rw [changes, Option.getD_some] at again isSame depthSame
          dsimp only
          rw [propagateEntries, if_pos (isSame.trans bullet), depthSame,
            startsDeeper_propagateEntries]
          dsimp only
          rw [again]
          exact congrArg _ (inductionHypothesis visited.2)
      · rw [propagateEntries, if_neg bullet, propagateEntries, if_neg bullet]
        exact congrArg _ (inductionHypothesis marks)

namespace Document

theorem propagateVisibility_propagateVisibility (document : Document) :
    document.propagateVisibility.propagateVisibility = document.propagateVisibility := by
  rw [propagateVisibility, propagateVisibility, propagateEntries_propagateEntries]

/-! ### Every bullet of a document -/

/-- The outermost bullet above a bullet that is not normal. -/
def outermostAbove? (document : Document) (bullet : Line) : Option Line :=
  (document.ancestors bullet).reverse.find? fun above => above.visibility != .normal

/-- What becomes of a bullet is read off the bullets above it in the document. -/
theorem pushedBullets_eq_map {document : Document} (placed : document.IsPlaced)
    {earlier later : List Line} (split : document.bullets = earlier ++ later) :
    pushedBullets earlier.reverse later = later.map fun bullet =>
      bullet.pushedDown (outermostMarked? (document.ancestors bullet))
        (document.isParent bullet) := by
  induction later generalizing earlier with
  | nil => rfl
  | cons bullet rest inductionHypothesis =>
    have further := inductionHypothesis (split.trans (List.append_cons earlier bullet rest))
    obtain ⟨above, -, isParent⟩ := family_of_split placed split
    rw [List.reverse_append] at further
    rw [pushedBullets, List.map_cons, ← further, above, isParent]
    rfl

/-- In every session, pushing visibility down makes of each bullet what the outermost marked bullet
above it says: below a hidden one it is hidden and not highlighted, below another one it is
fold-hidden unless it was hidden. A bullet without a marked one above it stays as it is, except that
a fold-hidden one becomes a fold, or normal if nothing is below it. A second pass changes
nothing. -/
theorem propagateVisibility_afterAll (unit : Int) (supply : IdSupply) (text : String)
    (edits : List Edit) :
    let document := (ofText unit supply text).afterAll edits
    let pushed := document.propagateVisibility
    (∀ (position : Nat) (bullet : Line), document.bullets[position]? = some bullet →
      ∃ later, pushed.bullets[position]? = some later ∧
        match document.outermostAbove? bullet with
        | some outermost =>
          (outermost.visibility = .hide →
            later = { bullet with visibility := .hide, isHighlighted := false }) ∧
          (outermost.visibility = .fold ∨ outermost.visibility = .foldHidden →
            later = { bullet with
              visibility := if bullet.visibility = .hide then .hide else .foldHidden })
        | none =>
          later = { bullet with
            visibility :=
              if bullet.visibility = .foldHidden then
                if document.isParent bullet then .fold else .normal
              else bullet.visibility }) ∧
      pushed.bullets.length = document.bullets.length ∧ pushed.propagateVisibility = pushed := by
  intro document pushed
  have placed : document.IsPlaced := isPlaced_afterAll unit supply text edits
  have bullets : pushed.bullets = document.bullets.map fun bullet =>
      bullet.pushedDown (outermostMarked? (document.ancestors bullet))
        (document.isParent bullet) :=
    document.bullets_propagateVisibility.trans
      (pushedBullets_eq_map placed (List.nil_append document.bullets).symm)
  refine ⟨fun position bullet found => ?_, by rw [bullets, List.length_map],
    propagateVisibility_propagateVisibility document⟩
  refine ⟨_, by rw [bullets, List.getElem?_map, found, Option.map_some], ?_⟩
  rw [outermostMarked?_eq_find?, ← outermostAbove?]
  cases document.outermostAbove? bullet with
  | none => exact Line.pushedDown_of_none _ bullet
  | some outermost =>
    exact ⟨Line.pushedDown_of_hide _ bullet, Line.pushedDown_of_fold _ bullet⟩

end Document

end OutlineDiagram
