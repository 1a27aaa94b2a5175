/-
This file proves when a hidden bullet is highlighted. Hiding a bullet takes its
highlight, and so does pushing visibility down to what is below a hidden one. The edit
that highlights does not ask whether the bullet is hidden. It is the only one that can
leave a hidden bullet highlighted, and it does so exactly where the bullet is hidden
itself and nothing above it hides it.
-/

import OutlineDiagram.Proofs.Document.Cleanup
import OutlineDiagram.Proofs.Document.Repeat

namespace OutlineDiagram

/-! ### Hidden lines -/

/-- The line is not hidden and highlighted at once. -/
def Line.HidesNoHighlight (line : Line) : Prop :=
  line.visibility = .hide → line.isHighlighted = false

instance : DecidablePred Line.HidesNoHighlight := fun line =>
  inferInstanceAs (Decidable (line.visibility = .hide → line.isHighlighted = false))

namespace Line

variable {line : Line}

theorem HidesNoHighlight.remarked (clean : line.HidesNoHighlight) (visibility : Visibility)
    (leaveHidden isParent : Bool) :
    (line.remarked visibility leaveHidden isParent).HidesNoHighlight := by
  rw [Line.remarked]
  split
  · exact clean
  · intro hidden
    cases visibility with
    | hide => exact Bool.and_false _
    | fold => cases isParent <;> exact absurd hidden (by simp [withVisibility])
    | _ => exact absurd hidden (by simp [withVisibility])

theorem HidesNoHighlight.withMark (clean : line.HidesNoHighlight) {visibility : Visibility}
    (hides : visibility = .hide → line.visibility = .hide) :
    (line.withMark visibility).HidesNoHighlight := fun hidden => clean (hides hidden)

theorem HidesNoHighlight.pushedDown (clean : line.HidesNoHighlight) (chain : List Line)
    (isParent : Bool) :
    (line.pushedDown (outermostMarked? chain) isParent).HidesNoHighlight := by
  by_cases hides : hidesBelow? chain = some true
  · rw [pushedDown_of_hidesBelow hides]
    exact fun _ => rfl
  · obtain ⟨push, -, hidden, sets⟩ := exists_push hides isParent
    rw [sets]
    exact clean.withMark (hidden _).mp

end Line

namespace Document

variable {document later : Document}

/-- No bullet of the document is hidden and highlighted at once. -/
def HidesNoHighlight (document : Document) : Prop :=
  ∀ bullet ∈ document.bullets, bullet.HidesNoHighlight

instance : DecidablePred HidesNoHighlight := fun document =>
  inferInstanceAs (Decidable (∀ bullet ∈ document.bullets, bullet.HidesNoHighlight))

/-- The document after an edit, with visibility pushed down then. -/
def step (document : Document) (edit : Edit) : Document :=
  (document.after edit).propagateVisibility

/-- The document after edits, with visibility pushed down after each. -/
def afterSteps (document : Document) (edits : List Edit) : Document := edits.foldl step document

/-- The edit highlights a bullet that is hidden, and not by a bullet above it. -/
def LightsHidden (document : Document) : Edit → Prop
  | .line (.highlight _) number => ∃ bullet ∈ document.bulletAt? (number - 1),
      bullet.visibility = .hide ∧ hidesBelow? (document.ancestors bullet) ≠ some true
  | _ => False

/-! ### Changes that keep hidden bullets dark -/

/-- A change of marks leaves no hidden bullet highlighted if it leaves none so by itself. -/
theorem HidesNoHighlight.of_lines_eq (clean : document.HidesNoHighlight) {change : Line → Line}
    (lines : later.lines = document.lines.map change)
    (keeps : ∀ line, (change line).unmarked = line.unmarked)
    (each : ∀ line ∈ document.bullets, line.HidesNoHighlight → (change line).HidesNoHighlight) :
    later.HidesNoHighlight := by
  intro bullet member
  obtain ⟨inside, isBullet⟩ := List.mem_filter.mp member
  rw [lines] at inside
  obtain ⟨before, beforeInside, rfl⟩ := List.mem_map.mp inside
  have beforeMember : before ∈ document.bullets := List.mem_filter.mpr
    ⟨beforeInside, (Line.isBullet_eq_of_unmarked (keeps before)).symm.trans isBullet⟩
  exact each before beforeMember (clean before beforeMember)

theorem HidesNoHighlight.propagateVisibility (placed : document.IsPlaced)
    (clean : document.HidesNoHighlight) : document.propagateVisibility.HidesNoHighlight := by
  refine clean.of_lines_eq (lines_propagateVisibility placed) unmarked_pushedLine
    fun line member lineClean => ?_
  rw [pushedLine, if_pos (isBullet_of_mem_bulletsOf member)]
  exact lineClean.pushedDown _ _

theorem hidesNoHighlight_remark {line : Line} (clean : line.HidesNoHighlight)
    (visibility : Visibility) (leaveHidden : Bool) (indexes : List Int) :
    (document.remark visibility leaveHidden indexes line).HidesNoHighlight := by
  rw [remark]
  split
  · exact clean.remarked visibility leaveHidden _
  · exact clean

theorem foldl_revealedMarks_ne_hide {order : List Line} {marks : Int → Visibility} {index : Int}
    (shown : marks index ≠ .hide) :
    order.foldl (fun sofar target => document.revealedMarks target sofar) marks index ≠ .hide := by
  induction order generalizing marks with
  | nil => exact shown
  | cons target rest inductionHypothesis =>
    exact inductionHypothesis (revealedMarks_ne_hide target shown)

/-- Whatever is revealed is not hidden then. -/
theorem revealedMark_ne_hide_of_mem {order : List Line} {bullet : Line} (listed : bullet ∈ order)
    (visibility : Visibility) : document.revealedMark order bullet.index visibility ≠ .hide := by
  obtain ⟨earlier, later, rfl⟩ := List.append_of_mem listed
  rw [revealedMark, List.foldl_append, List.foldl_cons]
  exact foldl_revealedMarks_ne_hide (revealedMarks_self_ne_hide bullet _)

theorem hidesNoHighlight_revealEach {line : Line} (clean : line.HidesNoHighlight)
    (order : List Line) : (document.revealEach order line).HidesNoHighlight := by
  refine clean.withMark fun hidden => ?_
  by_contra shown
  exact foldl_revealedMarks_ne_hide shown hidden

theorem hidesNoHighlight_unhide {line : Line} (clean : line.HidesNoHighlight) (bullet : Line) :
    (document.unhide bullet line).HidesNoHighlight := by
  rw [unhide, Line.changeAt_unhidden]
  refine hidesNoHighlight_remark (clean.withMark fun hidden => ?_) .normal false _
  split at hidden
  · exact absurd hidden (by decide)
  · exact hidden

/-- What is revealed may be highlighted. -/
theorem hidesNoHighlight_lit_revealEach {line bullet : Line} (clean : line.HidesNoHighlight)
    {order : List Line} (listed : bullet ∈ order) :
    ((document.revealEach order line).changeAt bullet.index (Line.lit false)).HidesNoHighlight := by
  by_cases here : line.index = bullet.index
  · intro hidden
    rw [← here, show line.index = (document.revealEach order line).index from rfl,
      Line.changeAt_self] at hidden
    have shown := document.revealedMark_ne_hide_of_mem listed line.visibility
    rw [← here] at shown
    exact absurd hidden shown
  · rw [Line.changeAt_of_ne (by exact here)]
    exact hidesNoHighlight_revealEach clean order

end Document

/-- Of the edits of one bullet only a highlight may meet a hidden bullet. -/
theorem LineEdit.hidesNoHighlight_change {document : Document} {edit : LineEdit}
    {bullet line : Line} (clean : line.HidesNoHighlight)
    (other : ∀ toggle, edit ≠ highlight toggle) :
    (edit.change document bullet line).HidesNoHighlight := by
  cases edit with
  | unhideChildren => exact Document.hidesNoHighlight_unhide clean bullet
  | highlight toggle => exact absurd rfl (other toggle)
  | reveal highlighted =>
    cases highlighted with
    | false => exact Document.hidesNoHighlight_revealEach clean [bullet]
    | true => exact Document.hidesNoHighlight_lit_revealEach clean (List.mem_singleton.mpr rfl)
  | connect withAncestors =>
    exact Document.hidesNoHighlight_lit_revealEach clean List.mem_cons_self
  | markEdited => exact clean
  | _ => exact Document.hidesNoHighlight_remark clean _ _ _

namespace Document

variable {document later : Document}

/-! ### Edits of ids -/

theorem map_withoutIds_of_materializeId {line : Line} {id : String} {events : List Event}
    (named : document.materializeId line = .ok (id, later, events)) :
    later.bullets.map Line.withoutIds = document.bullets.map Line.withoutIds := by
  rcases materializeId_cases named with ⟨-, rfl⟩ | ⟨-, -, -, bullets⟩
  · rfl
  · rw [bullets, List.map_map]
    exact List.map_congr_left fun other _ => Line.withoutIds_changeAt_withId line.index id other

theorem map_withoutIds_of_link {source target : Line} {events : List Event}
    (linked : document.link source target = .ok (later, events)) :
    later.bullets.map Line.withoutIds = document.bullets.map Line.withoutIds := by
  obtain ⟨id, withTarget, _, _, withSource, _, targetNamed, sourceNamed, rfl⟩ := link_cases linked
  have both := (map_withoutIds_of_materializeId sourceNamed).trans
    (map_withoutIds_of_materializeId targetNamed)
  split
  · exact both
  · refine Eq.trans ?_ both
    show (withSource.changeLine source.index (Line.withLink id)).bullets.map Line.withoutIds = _
    rw [bullets_changeLine source.index withSource (Line.withoutIds_withLink id), List.map_map]
    exact List.map_congr_left fun other _ =>
      Line.withoutIds_changeAt source.index (Line.withoutIds_withLink id) other

theorem map_withoutIds_cleanupIds :
    document.cleanupIds.bullets.map Line.withoutIds = document.bullets.map Line.withoutIds := by
  rw [bullets_cleanupIds, List.map_map]
  exact List.map_congr_left fun _ _ => rfl

theorem map_withoutIds_after_materializeId (number : Int) :
    (document.after (.materializeId number)).bullets.map Line.withoutIds =
      document.bullets.map Line.withoutIds := by
  rw [after]
  split
  · next done made =>
    obtain ⟨_, _, -, named⟩ := Edit.exists_of_apply_materializeId made
    exact map_withoutIds_of_materializeId named
  · rfl

theorem map_withoutIds_after_link (source target : Int) :
    (document.after (.link source target)).bullets.map Line.withoutIds =
      document.bullets.map Line.withoutIds := by
  rw [after]
  split
  · next done made =>
    obtain ⟨_, _, -, -, linked⟩ := Edit.exists_of_apply_link made
    exact map_withoutIds_of_link linked
  · rfl

/-- Ids and links make no difference to marks. -/
theorem HidesNoHighlight.of_withoutIds (clean : document.HidesNoHighlight)
    (same : later.bullets.map Line.withoutIds = document.bullets.map Line.withoutIds) :
    later.HidesNoHighlight := by
  intro bullet member
  have inside : bullet.withoutIds ∈ document.bullets.map Line.withoutIds :=
    same ▸ List.mem_map_of_mem member
  obtain ⟨before, beforeMember, frame⟩ := List.mem_map.mp inside
  rw [Line.eq_of_withoutIds frame.symm]
  exact clean before beforeMember

/-! ### Edits -/

theorem IsPlaced.after (placed : document.IsPlaced) (edit : Edit) :
    (document.after edit).IsPlaced := by
  rw [IsPlaced, (editedFrom_after document edit).map_index_lines]
  exact placed

theorem HidesNoHighlight.after (clean : document.HidesNoHighlight) (placed : document.IsPlaced)
    {edit : Edit} (other : ∀ toggle number, edit ≠ .line (.highlight toggle) number) :
    (document.after edit).HidesNoHighlight := by
  have all : ∀ (visibility : Visibility) (leaveHidden : Bool),
      (document.setAll visibility leaveHidden).HidesNoHighlight := fun visibility leaveHidden =>
    clean.of_lines_eq (lines_setVisibilities placed visibility leaveHidden document.bullets)
      (unmarked_remark visibility leaveHidden _) fun line _ lineClean =>
        hidesNoHighlight_remark lineClean visibility leaveHidden _
  cases edit with
  | line edit number =>
    rw [after_line]
    cases found : document.bulletAt? (number - 1) with
    | none => exact clean
    | some bullet =>
      refine clean.of_lines_eq (edit.lines_apply placed (mem_bullets_of_bulletAt? found))
        (edit.unmarked_change document bullet) fun line _ lineClean =>
          LineEdit.hidesNoHighlight_change lineClean ?_
      rintro toggle rfl
      exact other toggle number rfl
  | whole edit =>
    cases edit with
    | foldAll => exact all .fold true
    | unfoldAll => exact all .normal true
    | hideAll => exact all .hide false
    | unhideAll => exact all .normal false
    | propagateVisibility => exact clean.propagateVisibility placed
  | materializeId number => exact clean.of_withoutIds (map_withoutIds_after_materializeId number)
  | link source target => exact clean.of_withoutIds (map_withoutIds_after_link source target)
  | cleanupIds => exact clean.of_withoutIds map_withoutIds_cleanupIds

/-! ### Highlights -/

theorem hidesBelow?_map_of_visibility {change : Line → Line}
    (same : ∀ line, (change line).visibility = line.visibility) (chain : List Line) :
    hidesBelow? (chain.map change) = hidesBelow? chain := by
  induction chain with
  | nil => rfl
  | cons line above inductionHypothesis =>
    rw [List.map_cons, hidesBelow?_cons, hidesBelow?_cons, inductionHypothesis, same]

/-- A change that leaves visibility alone makes no difference to how bullets are pushed down. -/
theorem pushedLine_of_visibility {change : Line → Line}
    (lines : later.lines = document.lines.map change)
    (keeps : ∀ line, (change line).unmarked = line.unmarked)
    (same : ∀ line, (change line).visibility = line.visibility) {line : Line}
    (bullet : line.isBullet = true) :
    later.pushedLine (change line) =
      (change line).pushedDown (outermostMarked? (document.ancestors line))
        (document.isParent line) := by
  have above : hidesBelow? (later.ancestors (change line)) =
      hidesBelow? (document.ancestors line) := by
    rw [ancestors_of_lines_eq lines keeps, hidesBelow?_map_of_visibility same,
      ancestors_eq_of_unmarked (keeps line)]
  rw [pushedLine, Line.isBullet_eq_of_unmarked (keeps line), if_pos bullet,
    Line.pushedDown_congr above, isParent_of_frame (frame_of_lines_eq lines keeps),
    isParent_eq_of_unmarked (keeps line)]

/-- After a highlight some hidden bullet is highlighted if and only if the highlighted bullet is
hidden itself and not by one above it. -/
theorem hidesNoHighlight_highlight_iff (placed : document.IsPlaced)
    (clean : document.HidesNoHighlight) {bullet : Line} (member : bullet ∈ document.bullets)
    (toggle : Bool) :
    (document.highlight toggle bullet.index).propagateVisibility.HidesNoHighlight ↔
      ¬ (bullet.visibility = .hide ∧ hidesBelow? (document.ancestors bullet) ≠ some true) := by
  have lines : (document.highlight toggle bullet.index).lines =
      document.lines.map (Line.changeAt bullet.index (Line.lit toggle)) :=
    lines_changeLine bullet.index document
  generalize document.highlight toggle bullet.index = later at lines ⊢
  have keeps : ∀ line : Line,
      (line.changeAt bullet.index (Line.lit toggle)).unmarked = line.unmarked :=
    fun line => line.unmarked_changeAt bullet.index fun _ => rfl
  have same : ∀ line : Line,
      (line.changeAt bullet.index (Line.lit toggle)).visibility = line.visibility := by
    intro line
    rw [Line.changeAt]
    split <;> rfl
  have frame := frame_of_lines_eq lines keeps
  have pushed := lines_propagateVisibility (isPlaced_of_frame frame placed)
  rw [lines, List.map_map] at pushed
  constructor
  · rintro dark ⟨hidden, shows⟩
    have isBullet := isBullet_of_mem_bulletsOf member
    have final := pushedLine_of_visibility lines keeps same isBullet
    obtain ⟨push, -, stays, sets⟩ := Line.exists_push shows (document.isParent bullet)
    have made := List.mem_map_of_mem
      (f := later.pushedLine ∘ Line.changeAt bullet.index (Line.lit toggle))
      (List.mem_filter.mp member).1
    rw [← pushed, Function.comp_apply, final, sets, Line.changeAt_self] at made
    have isHidden : push bullet.visibility = .hide := (stays _).mpr hidden
    have unlit : (bullet.lit toggle).isHighlighted = false :=
      dark ((bullet.lit toggle).withMark (push bullet.visibility))
        (List.mem_filter.mpr ⟨made, isBullet⟩) isHidden
    rw [Line.lit, clean bullet member hidden] at unlit
    cases toggle <;> exact absurd unlit (by simp)
  · intro notHidden
    refine clean.of_lines_eq pushed (fun line => (unmarked_pushedLine _).trans (keeps line))
      fun line lineMember lineClean => ?_
    rw [Function.comp_apply,
      pushedLine_of_visibility lines keeps same (isBullet_of_mem_bulletsOf lineMember)]
    by_cases here : line.index = bullet.index
    · obtain rfl := placed.bullet_unique lineMember member here
      by_cases hides : hidesBelow? (document.ancestors line) = some true
      · rw [Line.pushedDown_of_hidesBelow hides]
        exact fun _ => rfl
      · refine Line.HidesNoHighlight.pushedDown (fun hidden => ?_) _ _
        exact absurd ⟨(same line).symm.trans hidden, hides⟩ notHidden
    · rw [Line.changeAt_of_ne here]
      exact lineClean.pushedDown _ _

/-! ### Steps -/

/-- One step keeps hidden bullets dark unless it highlights a hidden one. -/
theorem hidesNoHighlight_step_iff (placed : document.IsPlaced) (clean : document.HidesNoHighlight)
    (edit : Edit) : (document.step edit).HidesNoHighlight ↔ ¬ document.LightsHidden edit := by
  by_cases lights : ∃ toggle number, edit = .line (.highlight toggle) number
  · obtain ⟨toggle, number, rfl⟩ := lights
    rw [step, after_line, LightsHidden]
    cases found : document.bulletAt? (number - 1) with
    | none => simpa using clean.propagateVisibility placed
    | some bullet =>
      refine (hidesNoHighlight_highlight_iff placed clean (mem_bullets_of_bulletAt? found)
        toggle).trans (not_congr ?_)
      simp
  · have other : ∀ toggle number, edit ≠ .line (.highlight toggle) number :=
      fun toggle number same => lights ⟨toggle, number, same⟩
    refine iff_of_true ((clean.after placed other).propagateVisibility (placed.after edit)) ?_
    intro litHidden
    rw [LightsHidden] at litHidden
    · exact litHidden
    · exact other

theorem afterSteps_concat (document : Document) (edits : List Edit) (edit : Edit) :
    document.afterSteps (edits ++ [edit]) = (document.afterSteps edits).step edit :=
  List.foldl_concat ..

theorem IsPlaced.afterSteps (placed : document.IsPlaced) (edits : List Edit) :
    (document.afterSteps edits).IsPlaced := by
  induction edits using List.reverseRecOn with
  | nil => exact placed
  | append_singleton earlier edit inductionHypothesis =>
    rw [afterSteps_concat]
    exact (inductionHypothesis.after edit).after (.whole .propagateVisibility)

/-- In every session that has no hidden bullet highlighted at first, no bullet is hidden and
highlighted after any of the following steps if and only if no step highlights a bullet that is
hidden when the step is made, and not by a bullet above it. -/
theorem hidesNoHighlight_afterSteps_iff (unit : Int) (supply : IdSupply) (text : String)
    (edits steps : List Edit) :
    let start := (ofText unit supply text).afterAll edits
    start.HidesNoHighlight →
      ((∀ earlier, earlier <+: steps → (start.afterSteps earlier).HidesNoHighlight) ↔
        ∀ earlier edit, earlier ++ [edit] <+: steps →
          ¬ (start.afterSteps earlier).LightsHidden edit) := by
  intro start clean
  have placed : start.IsPlaced := isPlaced_afterAll unit supply text edits
  constructor
  · intro dark earlier edit made
    have before := dark earlier ((List.prefix_append _ _).trans made)
    have after := dark (earlier ++ [edit]) made
    rw [afterSteps_concat] at after
    exact (hidesNoHighlight_step_iff (placed.afterSteps earlier) before edit).mp after
  · intro keeps earlier
    induction earlier using List.reverseRecOn with
    | nil => exact fun _ => clean
    | append_singleton earlier edit inductionHypothesis =>
      intro made
      rw [afterSteps_concat]
      have before := inductionHypothesis ((List.prefix_append _ _).trans made)
      exact (hidesNoHighlight_step_iff (placed.afterSteps earlier) before edit).mpr
        (keeps earlier edit made)

/-- A bullet that is hidden because of the one above it may be highlighted: the highlight is gone
when visibility is pushed down. -/
theorem hidesNoHighlight_afterSteps_below :
    let start := (ofText 2 (IdSupply.ofListedHex []) "- A // a\n  - B // [!]\n").afterAll []
    let steps : List Edit := [.line .hide 1, .line (.highlight false) 2]
    start.HidesNoHighlight ∧ ∀ earlier, earlier <+: steps →
      (start.afterSteps earlier).HidesNoHighlight := by
  intro start steps
  have clean : start.HidesNoHighlight := by decide +kernel
  refine ⟨clean, (hidesNoHighlight_afterSteps_iff 2 (IdSupply.ofListedHex [])
    "- A // a\n  - B // [!]\n" [] steps clean).mpr fun earlier edit made => ?_⟩
  match earlier, made with
  | [], made =>
    obtain rfl : edit = .line .hide 1 := by simpa [steps] using made
    exact id
  | [first], made =>
    obtain ⟨rfl, rfl⟩ : first = .line .hide 1 ∧ edit = .line (.highlight false) 2 := by
      simpa [steps] using made
    show ¬ ∃ bullet ∈ (start.afterSteps [.line .hide 1]).bulletAt? (2 - 1),
      bullet.visibility = .hide ∧
        hidesBelow? ((start.afterSteps [.line .hide 1]).ancestors bullet) ≠ some true
    decide +kernel
  | first :: second :: rest, made =>
    have long := made.length_le
    simp [steps] at long

/-- A hidden bullet that is highlighted stays hidden, and it stays highlighted. -/
theorem not_hidesNoHighlight_step_highlight :
    let start := ofText 2 (IdSupply.ofListedHex []) "- A // [x]\n"
    start.HidesNoHighlight ∧ ¬ (start.step (.line (.highlight false) 1)).HidesNoHighlight := by
  decide +kernel

end Document

end OutlineDiagram
