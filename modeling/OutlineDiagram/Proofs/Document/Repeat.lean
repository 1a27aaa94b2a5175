/-
This file proves that an edit of marks that is made twice does no more than one that
is made once, when visibility is pushed down after each. What a line is pushed down to
is told by itself and by how the outermost marked bullet above it closes it, and that
is the same after the second edit as after the first. Each edit settles: what it makes
of a line that it changed already is the same again, whatever pushing down has made of
the visibility in between.
-/

import OutlineDiagram.Proofs.Document.Remark

namespace OutlineDiagram

/-! ### Lines pushed down -/

/-- Lines that differ in their bullets only are told by what became of the bullets. -/
theorem eq_map_of_bulletsOf {later first : List Line} {change : Line → Line}
    (each : List.Forall₂ (fun now before => now.isBullet = before.isBullet ∧
      (before.isBullet = false → now = before)) later first)
    (bullets : bulletsOf later = (bulletsOf first).map change) :
    later = first.map fun line => if line.isBullet then change line else line := by
  induction each with
  | nil => rfl
  | @cons now before laters firsts step _ inductionHypothesis =>
    rw [List.map_cons]
    cases isBullet : before.isBullet with
    | true =>
      rw [bulletsOf, bulletsOf, List.filter_cons_of_pos (step.1.trans isBullet),
        List.filter_cons_of_pos isBullet, List.map_cons, List.cons.injEq] at bullets
      exact congrArg₂ List.cons bullets.1 (inductionHypothesis bullets.2)
    | false =>
      have isOther : ¬ before.isBullet = true := by rw [isBullet]; decide
      rw [bulletsOf, bulletsOf, List.filter_cons_of_neg (step.1 ▸ isOther),
        List.filter_cons_of_neg isOther] at bullets
      exact congrArg₂ List.cons (step.2 isBullet) (inductionHypothesis bullets)

theorem forall₂_lines_propagateEntries (marks : OpenMarks) (entries : List Entry) :
    List.Forall₂ (fun now before => now.isBullet = before.isBullet ∧
        (before.isBullet = false → now = before))
      ((propagateEntries marks entries).filterMap Entry.line?)
      (entries.filterMap Entry.line?) := by
  induction entries generalizing marks with
  | nil => exact .nil
  | cons entry rest inductionHypothesis =>
    cases entry with
    | blank text => exact inductionHypothesis marks
    | script text => exact inductionHypothesis marks
    | parsed line isEdited =>
      rw [propagateEntries]
      split
      · next bullet =>
        have same := isBullet_getD_visit (marks.reach line.depth)
          (startsDeeper line.depth (rest.filterMap Entry.line?)) line
        dsimp only
        generalize (marks.reach line.depth).visit
          (startsDeeper line.depth (rest.filterMap Entry.line?)) line = visited at same ⊢
        obtain ⟨changed?, after⟩ := visited
        have isOther : line.isBullet = false → changed?.getD line = line := fun other =>
          absurd (bullet.symm.trans other) (by decide)
        cases changed? with
        | none => exact .cons ⟨same, isOther⟩ (inductionHypothesis after)
        | some changed => exact .cons ⟨same, isOther⟩ (inductionHypothesis after)
      · exact .cons ⟨rfl, fun _ => rfl⟩ (inductionHypothesis marks)

namespace Document

variable {document later first : Document}

/-- What pushing visibility down makes of a line. -/
def pushedLine (document : Document) (line : Line) : Line :=
  if line.isBullet then
    line.pushedDown (outermostMarked? (document.ancestors line)) (document.isParent line)
  else line

theorem lines_propagateVisibility (placed : document.IsPlaced) :
    document.propagateVisibility.lines = document.lines.map document.pushedLine :=
  eq_map_of_bulletsOf (forall₂_lines_propagateEntries {} document.entries)
    (document.bullets_propagateVisibility.trans
      (pushedBullets_eq_map placed (List.nil_append document.bullets).symm))

theorem unmarked_pushedLine (line : Line) :
    (document.pushedLine line).unmarked = line.unmarked := by
  rw [pushedLine]
  split
  · obtain ⟨visibility, isHighlighted, same⟩ := line.pushedDown_eq
      (outermostMarked? (document.ancestors line)) (document.isParent line)
    rw [same]
    rfl
  · rfl

/-- The way up from a bullet with other marks is the way up with these marks. -/
theorem ancestors_of_lines_eq {change : Line → Line} (lines : later.lines = first.lines.map change)
    (keeps : ∀ line, (change line).unmarked = line.unmarked) (line : Line) :
    later.ancestors line = (first.ancestors line).map change := by
  have place : (fun other : Line => other.index != line.index) ∘ change =
      fun other => other.index != line.index := by
    funext other
    rw [Function.comp_apply, Line.index_eq_of_unmarked (keeps other)]
  rw [ancestors, ancestors, ← shallowerChain_map keeps, linesBefore, linesBefore, lines,
    List.takeWhile_map, place, List.map_reverse]

end Document

/-! ### What closes a bullet -/

/-- How the outermost marked bullet of a chain closes what is below it, if there is one: it hides
it, or it folds it. -/
def hidesBelow? (chain : List Line) : Option Bool :=
  (outermostMarked? chain).map fun outermost => outermost.visibility == .hide

/-- How a bullet with a visibility and nothing marked above it closes what is below it. -/
def Visibility.hidesBelow? : Visibility → Option Bool
  | normal => none
  | hide => some true
  | fold => some false
  | foldHidden => some false

/-- A fold-hidden bullet closes what is below it as the fold that it becomes. -/
theorem Visibility.hidesBelow?_opened (visibility : Visibility) :
    (if visibility = .foldHidden then .fold else visibility : Visibility).hidesBelow? =
      visibility.hidesBelow? := by
  cases visibility <;> rfl

theorem hidesBelow?_cons (line : Line) (above : List Line) :
    hidesBelow? (line :: above) = (hidesBelow? above).or line.visibility.hidesBelow? := by
  rw [hidesBelow?, outermostMarked?, hidesBelow?]
  cases outermostMarked? above with
  | some outermost => rfl
  | none => cases marked : line.visibility <;> simp [marked, Visibility.hidesBelow?]

theorem Line.pushedDown_congr {one other : List Line} (same : hidesBelow? one = hidesBelow? other)
    (isParent : Bool) (line : Line) :
    line.pushedDown (outermostMarked? one) isParent =
      line.pushedDown (outermostMarked? other) isParent := by
  rw [hidesBelow?, hidesBelow?] at same
  generalize outermostMarked? one = first, outermostMarked? other = second at same ⊢
  cases first with
  | none =>
    rw [Option.map_eq_none_iff.mp same.symm]
  | some outermost =>
    obtain ⟨otherOutermost, rfl, hides⟩ := Option.map_eq_some_iff.mp same.symm
    have both : outermost.visibility = .hide ↔ otherOutermost.visibility = .hide := by
      simpa using (Bool.eq_iff_iff.mp hides).symm
    rw [pushedDown, pushedDown]
    exact if_congr both rfl rfl

namespace Document

variable {document later first : Document}

section Agree

variable (placed : first.IsPlaced) {change : Line → Line}
  (keeps : ∀ line, (change line).unmarked = line.unmarked)
  (agree : ∀ line ∈ first.lines, first.pushedLine (change line) = first.pushedLine line)

include placed keeps agree

theorem hidesBelow?_map {bullet : Line} (member : bullet ∈ first.bullets) :
    hidesBelow? ((first.ancestors bullet).map change) = hidesBelow? (first.ancestors bullet) := by
  induction known : first.ancestors bullet generalizing bullet with
  | nil => rfl
  | cons parent further inductionHypothesis =>
    obtain ⟨parentMember, below⟩ := of_mem_ancestors placed member (known ▸ List.mem_cons_self)
    have chain := ancestors_eq_of_parent? placed member
    rw [parent?, known] at chain
    obtain rfl : further = first.ancestors parent := List.tail_eq_of_cons_eq chain
    have above := inductionHypothesis parentMember rfl
    rw [List.map_cons, hidesBelow?_cons, hidesBelow?_cons, above]
    cases clear : outermostMarked? (first.ancestors parent) with
    | some outermost => rw [hidesBelow?, clear]; rfl
    | none =>
      -- Nothing above decides, so the parent does, and it is pushed down to the same.
      have isParent : first.isParent parent = true := by
        rw [isParent_eq placed parentMember]
        simpa using List.ne_nil_of_mem below
      obtain ⟨inLines, bullet⟩ := List.mem_filter.mp parentMember
      have same := congrArg (fun line : Line => line.visibility.hidesBelow?) (agree parent inLines)
      rw [pushedLine, pushedLine, Line.isBullet_eq_of_unmarked (keeps parent), if_pos bullet,
        if_pos bullet, ancestors_eq_of_unmarked (keeps parent),
        isParent_eq_of_unmarked (keeps parent), clear, isParent, Line.pushedDown_of_none,
        Line.pushedDown_of_none] at same
      refine congrArg (Option.or _) ?_
      rwa [← Visibility.hidesBelow?_opened, ← Visibility.hidesBelow?_opened parent.visibility]

/-- Other marks make no difference where each of them alone would be pushed down to the same. -/
theorem lines_propagateVisibility_congr (lines : later.lines = first.lines.map change) :
    later.propagateVisibility.lines = first.propagateVisibility.lines := by
  have frame := frame_of_lines_eq lines keeps
  rw [lines_propagateVisibility placed, lines_propagateVisibility (isPlaced_of_frame frame placed),
    lines, List.map_map]
  refine List.map_congr_left fun line member => ?_
  rw [Function.comp_apply, ← agree line member, pushedLine, pushedLine, isParent_of_frame frame,
    Line.isBullet_eq_of_unmarked (keeps line)]
  split
  · next bullet =>
    rw [ancestors_eq_of_unmarked (keeps line), ancestors_eq_of_unmarked (keeps line),
      ancestors_of_lines_eq lines keeps]
    exact Line.pushedDown_congr
      (hidesBelow?_map placed keeps agree (List.mem_filter.mpr ⟨member, bullet⟩)) _ _
  · rfl

end Agree

end Document

/-! ### Changes that settle -/

namespace Line

/-- A bullet below a hidden one becomes hidden and loses its highlight. -/
theorem pushedDown_of_hidesBelow {chain : List Line} (hides : hidesBelow? chain = some true)
    (isParent : Bool) (line : Line) :
    line.pushedDown (outermostMarked? chain) isParent = line.unmarked.withMark .hide := by
  obtain ⟨outermost, found, hidden⟩ := Option.map_eq_some_iff.mp hides
  rw [found, pushedDown_of_hide isParent line (eq_of_beq hidden)]
  rfl

/-- Pushing down what is not below a hidden bullet changes the visibility alone. It hides and
unhides nothing, and a second time it changes nothing. -/
theorem exists_push {chain : List Line} (shows : hidesBelow? chain ≠ some true)
    (isParent : Bool) :
    ∃ push : Visibility → Visibility, (∀ visibility, push (push visibility) = push visibility) ∧
      (∀ visibility, push visibility = .hide ↔ visibility = .hide) ∧
      ∀ line : Line,
        line.pushedDown (outermostMarked? chain) isParent =
          line.withMark (push line.visibility) := by
  cases found : outermostMarked? chain with
  | none =>
    refine ⟨fun visibility =>
      if visibility = .foldHidden then if isParent then .fold else .normal else visibility,
      ?_, ?_, pushedDown_of_none isParent⟩
    · intro visibility
      cases visibility <;> cases isParent <;> rfl
    · intro visibility
      cases visibility <;> cases isParent <;> decide
  | some outermost =>
    have notHidden : outermost.visibility ≠ .hide := by
      intro hidden
      exact shows (by rw [hidesBelow?, found, Option.map_some, hidden]; rfl)
    refine ⟨fun visibility => if visibility = .hide then .hide else .foldHidden, ?_, ?_,
      fun line => pushedDown_of_ne_hide isParent line notHidden⟩
    · intro visibility
      cases visibility <;> rfl
    · intro visibility
      cases visibility <;> decide

/-- The line with another visibility, and highlighted if that is wanted of its position. -/
def marked (marks : Int → Visibility → Visibility) (lit : Int → Bool) (line : Line) : Line :=
  { line with
    visibility := marks line.index line.visibility
    isHighlighted := line.isHighlighted || lit line.index }

theorem changeAt_lit_marked (marks : Int → Visibility → Visibility) (index : Int) (line : Line) :
    (line.marked marks fun _ => false).changeAt index (lit false) =
      line.marked marks fun other => other == index := by
  rw [changeAt, marked, marked, Bool.or_false]
  cases line.index == index <;> simp [lit]

/-- A change of marks that settles: made again of a line that it changed, when the visibility may
have become another one since but was neither hidden nor unhidden, it makes the same of the line or
leaves it alone. -/
structure IsSteady (change : Line → Line) : Prop where
  /-- Only marks are changed. -/
  unmarked : ∀ line, (change line).unmarked = line.unmarked
  /-- The second change makes the same or nothing. -/
  again : ∀ line visibility, (visibility = .hide ↔ (change line).visibility = .hide) →
    change ((change line).withMark visibility) = change line ∨
      change ((change line).withMark visibility) = (change line).withMark visibility

namespace IsSteady

variable {change : Line → Line}

theorem self : IsSteady fun line => line where
  unmarked _ := rfl
  again _ _ _ := Or.inr rfl

theorem marked {marks : Int → Visibility → Visibility} (lit : Int → Bool)
    (settles : ∀ index before now, (now = .hide ↔ marks index before = .hide) →
      marks index now = marks index before ∨ marks index now = now) :
    IsSteady (Line.marked marks lit) where
  unmarked line := rfl
  again line visibility agree := by
    refine (settles line.index line.visibility visibility agree).imp (fun set => ?_) fun kept => ?_
    · simp only [Line.marked, withMark, Bool.or_assoc, Bool.or_self, set]
    · simp only [Line.marked, withMark, Bool.or_assoc, Bool.or_self, kept]

/-- A change settles if of each visibility it either sets one or leaves it alone. -/
theorem marked_of_set_or_kept {marks : Int → Visibility → Visibility} (lit : Int → Bool)
    (decided : ∀ index, (∀ before now, marks index now = marks index before) ∨
      ∀ now, marks index now = now) : IsSteady (Line.marked marks lit) :=
  .marked lit fun index before now _ =>
    (decided index).imp (fun set => set before now) fun kept => kept now

theorem remark (document : Document) (visibility : Visibility) (leaveHidden : Bool)
    (indexes : List Int) : IsSteady (document.remark visibility leaveHidden indexes) where
  unmarked := document.unmarked_remark visibility leaveHidden indexes
  again line other agree := by
    have frame : ((document.remark visibility leaveHidden indexes line).withMark other).unmarked =
        line.unmarked := document.unmarked_remark visibility leaveHidden indexes line
    generalize known : document.remark visibility leaveHidden indexes line = once at agree frame ⊢
    rw [Document.remark] at known ⊢
    rw [index_eq_of_unmarked frame, Document.isParent_eq_of_unmarked frame]
    split at known
    · next reached =>
      rw [if_pos reached]
      by_cases left : leaveHidden ∧ other = .hide
      · exact Or.inr (if_pos left)
      · -- The line was not left alone the first time either.
        have set : once = line.withVisibility visibility (document.isParent line) := by
          rw [← known, remarked, if_neg]
          rintro ⟨leaves, hidden⟩
          rw [remarked, if_pos ⟨leaves, hidden⟩] at known
          exact left ⟨leaves, agree.mpr (known ▸ hidden)⟩
        left
        rw [remarked, visibility_withMark, if_neg left, set, withVisibility, withVisibility]
        simp [withMark]
    · next missed => exact Or.inr (if_neg missed)

/-- A bullet that settles and is pushed down stays as it is when both is done again. -/
theorem pushedLine_again (steady : IsSteady change) (document : Document) (line : Line) :
    document.pushedLine (change (document.pushedLine (change line))) =
      document.pushedLine (change line) := by
  have frame : (change (document.pushedLine (change line))).unmarked = (change line).unmarked :=
    (steady.unmarked _).trans (document.unmarked_pushedLine _)
  cases bullet : (change line).isBullet with
  | false =>
    have alone : document.pushedLine (change line) = change line := by
      rw [Document.pushedLine, bullet]
      rfl
    have same : change (change line) = change line := by
      rcases steady.again line (change line).visibility Iff.rfl with set | kept
      · exact set
      · exact kept
    rw [alone, same, alone]
  | true =>
    have pushed : ∀ other : Line, other.unmarked = (change line).unmarked →
        document.pushedLine other =
          other.pushedDown (outermostMarked? (document.ancestors (change line)))
            (document.isParent (change line)) := by
      intro other same
      rw [Document.pushedLine, isBullet_eq_of_unmarked same, if_pos bullet,
        Document.ancestors_eq_of_unmarked same, Document.isParent_eq_of_unmarked same]
    rw [pushed _ frame, pushed _ rfl]
    by_cases hides : hidesBelow? (document.ancestors (change line)) = some true
    · rw [pushedDown_of_hidesBelow hides, pushedDown_of_hidesBelow hides, steady.unmarked]
      rfl
    · obtain ⟨push, twice, hidden, sets⟩ := exists_push hides (document.isParent (change line))
      rw [sets (change line), sets]
      rcases steady.again line (push (change line).visibility) (hidden _) with set | kept
      · rw [set]
      · rw [kept, visibility_withMark, twice, withMark_withMark]

end IsSteady

end Line

namespace Document

variable (document : Document)

theorem revealedMarks_set_or_kept (bullet : Line) (index : Int) :
    (∀ marks others : Int → Visibility,
        document.revealedMarks bullet marks index = document.revealedMarks bullet others index) ∨
      ∀ marks : Int → Visibility, document.revealedMarks bullet marks index = marks index := by
  unfold revealedMarks
  split_ifs
  · exact Or.inl fun _ _ => rfl
  · exact Or.inl fun _ _ => rfl
  · exact Or.inl fun _ _ => rfl
  · exact Or.inl fun _ _ => rfl
  · exact Or.inr fun _ => rfl

/-- Revealing bullets one after the other sets a mark, whatever it was, or leaves it alone. -/
theorem foldl_revealedMarks_set_or_kept (order : List Line) (index : Int) :
    (∀ marks others : Int → Visibility,
        order.foldl (fun sofar target => document.revealedMarks target sofar) marks index =
          order.foldl (fun sofar target => document.revealedMarks target sofar) others index) ∨
      ∀ marks : Int → Visibility,
        order.foldl (fun sofar target => document.revealedMarks target sofar) marks index =
          marks index := by
  induction order with
  | nil => exact Or.inr fun _ => rfl
  | cons target rest inductionHypothesis =>
    rcases inductionHypothesis with set | kept
    · exact Or.inl fun _ _ => set _ _
    · refine (document.revealedMarks_set_or_kept target index).imp ?_ ?_
      · intro set marks others
        exact (kept _).trans ((set marks others).trans (kept _).symm)
      · intro same marks
        exact (kept _).trans (same marks)

theorem revealedMark_set_or_kept (order : List Line) (index : Int) :
    (∀ before now,
        document.revealedMark order index now = document.revealedMark order index before) ∨
      ∀ now, document.revealedMark order index now = now :=
  (document.foldl_revealedMarks_set_or_kept order index).imp (fun set _ _ => set _ _)
    fun kept _ => kept _

theorem isSteady_unhide (bullet : Line) : Line.IsSteady (document.unhide bullet) := by
  have same : document.unhide bullet = Line.marked (fun index visibility =>
      if index ∈ (document.descendants bullet).map Line.index then .normal
      else if index = bullet.index ∧ visibility = .hide then .normal else visibility)
        fun _ => false := by
    funext line
    rw [unhide, Line.changeAt_unhidden, remark_normal, Line.marked, Bool.or_false]
    rfl
  rw [same]
  refine .marked _ fun index before now agree => ?_
  by_cases below : index ∈ (document.descendants bullet).map Line.index
  · exact Or.inl (by rw [if_pos below, if_pos below])
  · rw [if_neg below] at agree ⊢
    rw [if_neg below]
    by_cases here : index = bullet.index
    · -- The bullet is not hidden any more, so what it is now is left alone.
      refine Or.inr (if_neg fun both => ?_)
      have still := agree.mp both.2
      split at still
      · exact absurd still (by decide)
      · next shown => exact shown ⟨here, still⟩
    · exact Or.inr (if_neg fun both => here both.1)

end Document

namespace LineEdit

open Document

variable {document : Document} {bullet : Line}

theorem isSteady_change (edit : LineEdit) (sets : edit ≠ .highlight true) :
    Line.IsSteady (edit.change document bullet) := by
  have revealed : ∀ order : List Line,
      document.revealEach order = Line.marked (document.revealedMark order) fun _ => false := by
    intro order
    funext line
    rw [revealEach, Line.marked, Bool.or_false]
    rfl
  have lit : ∀ marks : Int → Visibility → Visibility,
      Line.changeAt bullet.index (Line.lit false) ∘ Line.marked marks (fun _ => false) =
        Line.marked marks fun other => other == bullet.index :=
    fun marks => funext (Line.changeAt_lit_marked marks bullet.index)
  cases edit with
  | unhideChildren => exact document.isSteady_unhide bullet
  | highlight toggle =>
    obtain rfl : toggle = false := by simpa using sets
    have alone : Line.marked (fun _ visibility => visibility) (fun _ => false) = id := by
      funext line
      rw [Line.marked, Bool.or_false]
      rfl
    have same := lit fun _ visibility => visibility
    rw [alone, Function.comp_id] at same
    rw [change, same]
    exact .marked_of_set_or_kept _ fun _ => Or.inr fun _ => rfl
  | reveal highlighted =>
    cases highlighted with
    | false =>
      show Line.IsSteady (document.revealEach [bullet])
      rw [revealed]
      exact .marked_of_set_or_kept _ (document.revealedMark_set_or_kept [bullet])
    | true =>
      show Line.IsSteady
        (Line.changeAt bullet.index (Line.lit false) ∘ document.revealEach [bullet])
      rw [revealed, lit]
      exact .marked_of_set_or_kept _ (document.revealedMark_set_or_kept [bullet])
  | connect withAncestors =>
    rw [change, revealed, lit]
    exact .marked_of_set_or_kept _ (document.revealedMark_set_or_kept _)
  | markEdited => exact .self
  | _ => exact Line.IsSteady.remark ..

end LineEdit

/-! ### Edits made again -/

/-- The edit sets marks, each to a value of its own; only a toggled highlight is none such. -/
def Edit.SetsMarks : Edit → Prop
  | .line edit _ => edit ≠ .highlight true
  | .whole _ => True
  | _ => False

namespace Document

variable {document later first : Document}

theorem map_bulletAt?_of_frame
    (frame : later.lines.map Line.unmarked = first.lines.map Line.unmarked) (index : Int) :
    (later.bulletAt? index).map Line.unmarked = (first.bulletAt? index).map Line.unmarked := by
  have cut : ∀ document : Document, (document.bulletAt? index).map Line.unmarked =
      ((document.lines.map Line.unmarked).find? fun line => line.index == index).filter
        Line.isBullet := by
    intro document
    rw [List.find?_map, bulletAt?, lineAt?]
    show _ = ((document.lines.find? fun line => line.index == index).map Line.unmarked).filter _
    cases document.lines.find? fun line => line.index == index with
    | none => rfl
    | some line =>
      have same : line.unmarked.isBullet = line.isBullet := rfl
      cases bullet : line.isBullet <;> simp [Option.filter_some, same, bullet]
  rw [cut, cut, frame]

theorem mem_bullets_of_bulletAt? {index : Int} {bullet : Line}
    (found : document.bulletAt? index = some bullet) : bullet ∈ document.bullets := by
  obtain ⟨found, isBullet⟩ := Option.filter_eq_some_iff.mp found
  exact List.mem_filter.mpr ⟨List.mem_of_find?_eq_some found, isBullet⟩

theorem after_line (document : Document) (edit : LineEdit) (number : Int) :
    document.after (.line edit number) =
      ((document.bulletAt? (number - 1)).map fun bullet => edit.apply bullet document).getD
        document := by
  rw [after, Edit.apply, bulletOn]
  cases document.bulletAt? (number - 1) with
  | none => rfl
  | some bullet => rfl

/-- An edit that sets marks makes the same change of each line whatever the marks are, and the
change settles. -/
theorem exists_steady_change (placed : document.IsPlaced) {edit : Edit} (sets : edit.SetsMarks)
    (other : edit ≠ .whole .propagateVisibility) :
    ∃ change, Line.IsSteady change ∧
      ∀ later : Document, later.lines.map Line.unmarked = document.lines.map Line.unmarked →
        (later.after edit).lines = later.lines.map change := by
  have all : ∀ (visibility : Visibility) (leaveHidden : Bool) (later : Document),
      later.lines.map Line.unmarked = document.lines.map Line.unmarked →
      (later.setAll visibility leaveHidden).lines =
        later.lines.map (document.remark visibility leaveHidden
          (document.bullets.map Line.index)) := by
    intro visibility leaveHidden later frame
    have indexes : later.bullets.map Line.index = document.bullets.map Line.index := by
      have same := congrArg (List.map Line.index) (map_bullets_of_frame frame)
      rwa [List.map_map, List.map_map] at same
    rw [setAll, lines_setVisibilities (isPlaced_of_frame frame placed), remark_of_frame frame,
      indexes]
  cases edit with
  | line edit number =>
    cases found : document.bulletAt? (number - 1) with
    | none =>
      refine ⟨fun line => line, .self, fun later frame => ?_⟩
      have none := map_bulletAt?_of_frame frame (number - 1)
      rw [found, Option.map_none, Option.map_eq_none_iff] at none
      rw [after_line, none, List.map_id']
      rfl
    | some bullet =>
      refine ⟨edit.change document bullet, edit.isSteady_change sets, fun later frame => ?_⟩
      have some := map_bulletAt?_of_frame frame (number - 1)
      rw [found, Option.map_some, Option.map_eq_some_iff] at some
      obtain ⟨now, laterFound, same⟩ := some
      rw [after_line, laterFound, Option.map_some, Option.getD_some,
        edit.lines_apply (isPlaced_of_frame frame placed) (mem_bullets_of_bulletAt? laterFound),
        edit.change_of_frame frame same]
  | whole edit =>
    cases edit with
    | foldAll => exact ⟨_, .remark .., all .fold true⟩
    | unfoldAll => exact ⟨_, .remark .., all .normal true⟩
    | hideAll => exact ⟨_, .remark .., all .hide false⟩
    | unhideAll => exact ⟨_, .remark .., all .normal false⟩
    | propagateVisibility => exact absurd rfl other
  | _ => exact sets.elim

/-- In every session, an edit that sets marks, made again after visibility was pushed down, changes
nothing more once visibility is pushed down again. -/
theorem lines_repeated_edit (unit : Int) (supply : IdSupply) (text : String) (edits : List Edit)
    (edit : Edit) (sets : edit.SetsMarks) :
    let document := (ofText unit supply text).afterAll edits
    let once := (document.after edit).propagateVisibility
    (once.after edit).propagateVisibility.lines = once.lines := by
  intro document once
  have placed : document.IsPlaced := isPlaced_afterAll unit supply text edits
  by_cases pushes : edit = .whole .propagateVisibility
  · subst pushes
    have still : once.propagateVisibility = once := propagateVisibility_propagateVisibility _
    show once.propagateVisibility.propagateVisibility.lines = once.lines
    rw [still, still]
  obtain ⟨change, steady, changes⟩ := exists_steady_change placed sets pushes
  have first := changes document rfl
  have frame := frame_of_lines_eq first steady.unmarked
  have firstPlaced := isPlaced_of_frame frame placed
  have pushed := lines_propagateVisibility firstPlaced
  have pushedFrame := (frame_of_lines_eq pushed unmarked_pushedLine).trans frame
  have again := changes once pushedFrame
  rw [pushed, List.map_map] at again
  refine lines_propagateVisibility_congr firstPlaced (fun line => ?_) (fun line member => ?_) again
  · exact (steady.unmarked _).trans (unmarked_pushedLine line)
  · obtain ⟨before, -, rfl⟩ := List.mem_map.mp (first ▸ member)
    exact steady.pushedLine_again _ before

/-- Connecting a bullet in a document with marks of every kind changes marks, and the second time
it changes no more. -/
theorem lines_repeated_connect :
    let document := (ofText 2 (IdSupply.ofListedHex []) "- A // [-]
  - B // [+]
    - C // >d
- D // d [+]
  - E // [-]
").afterAll []
    let once := (document.after (.line (.connect false) 3)).propagateVisibility
    (Edit.line (.connect false) 3).SetsMarks ∧ once.lines ≠ document.lines ∧
      (once.after (.line (.connect false) 3)).propagateVisibility.lines = once.lines := by
  have sets : (Edit.line (.connect false) 3).SetsMarks := by
    rw [Edit.SetsMarks]
    decide
  exact ⟨sets, by decide +kernel,
    lines_repeated_edit 2 (IdSupply.ofListedHex []) _ [] (.line (.connect false) 3) sets⟩

end Document

end OutlineDiagram
