/-
This file says what an edit of marks makes of each line of a document. Such an edit
changes every line by itself: what becomes of a line is told by its own marks and by
the bullets around it, and no mark decides which bullets these are. So an edit that is
made again, when the marks are others, makes the same change of every line.
-/

import OutlineDiagram.Proofs.Document.Reveal

namespace OutlineDiagram

/-! ### Lines with other marks -/

/-- The line with a visibility set, unless it is hidden and that is to be left alone. -/
def Line.remarked (visibility : Visibility) (leaveHidden isParent : Bool) (line : Line) : Line :=
  if leaveHidden ∧ line.visibility = .hide then line else line.withVisibility visibility isParent

/-- The line with another visibility and the same highlight. -/
def Line.withMark (visibility : Visibility) (line : Line) : Line :=
  { line with visibility := visibility }

/-- The line, normal if it was hidden. -/
def Line.unhidden (line : Line) : Line :=
  line.withMark (if line.visibility = .hide then .normal else line.visibility)

/-- The line highlighted; on request a highlight is taken away instead. -/
def Line.lit (toggle : Bool) (line : Line) : Line :=
  { line with isHighlighted := if toggle then !line.isHighlighted else true }

namespace Line

section Marked

variable (visibility : Visibility) (line : Line)

@[simp] theorem index_withMark : (line.withMark visibility).index = line.index := rfl

@[simp] theorem visibility_withMark : (line.withMark visibility).visibility = visibility := rfl

@[simp] theorem unmarked_withMark : (line.withMark visibility).unmarked = line.unmarked := rfl

@[simp] theorem withMark_withMark (other : Visibility) :
    (line.withMark other).withMark visibility = line.withMark visibility := rfl

theorem withMark_visibility : line.withMark line.visibility = line := rfl

theorem unmarked_changeAt (index : Int) {change : Line → Line}
    (keeps : ∀ line, (change line).unmarked = line.unmarked) :
    (line.changeAt index change).unmarked = line.unmarked := by
  rw [changeAt]
  split
  · exact keeps line
  · rfl

theorem changeAt_unhidden (index : Int) :
    line.changeAt index unhidden =
      line.withMark
        (if line.index = index ∧ line.visibility = .hide then .normal else line.visibility) := by
  by_cases here : line.index = index
  · rw [← here, changeAt_self, unhidden]
    exact congrArg (fun visibility => line.withMark visibility)
      (if_congr (and_iff_right rfl).symm rfl rfl)
  · rw [changeAt_of_ne here, if_neg fun both => here both.1, withMark_visibility]

end Marked

section Remarked

variable (visibility : Visibility) (leaveHidden isParent : Bool) (line : Line)

theorem unmarked_remarked :
    (line.remarked visibility leaveHidden isParent).unmarked = line.unmarked := by
  rw [remarked]
  split <;> rfl

theorem remarked_remarked :
    (line.remarked visibility leaveHidden isParent).remarked visibility leaveHidden isParent =
      line.remarked visibility leaveHidden isParent := by
  by_cases left : leaveHidden ∧ line.visibility = .hide
  · have same : line.remarked visibility leaveHidden isParent = line := if_pos left
    rw [same, same]
  · have set : line.remarked visibility leaveHidden isParent =
        line.withVisibility visibility isParent := if_neg left
    rw [set, remarked]
    split
    · rfl
    · rw [withVisibility, withVisibility, Bool.and_assoc, Bool.and_self]

end Remarked

end Line

namespace Document

variable {document later first : Document}

/-! ### Bullets linked with a bullet -/

theorem uniqueBy_map_unmarked (lines : List Line) :
    uniqueBy (fun first second => first.index == second.index) (lines.map Line.unmarked) =
      (uniqueBy (fun first second => first.index == second.index) lines).map Line.unmarked :=
  uniqueBy_map (fun _ _ => rfl) lines

section Frame

variable (frame : later.lines.map Line.unmarked = first.lines.map Line.unmarked)
  {now bullet : Line} (same : now.unmarked = bullet.unmarked)

include frame

theorem map_findById?_of_frame (id : String) :
    (later.findById? id).map Line.unmarked = (first.findById? id).map Line.unmarked := by
  have cut : ∀ document : Document, (document.findById? id).map Line.unmarked =
      (document.bullets.map Line.unmarked).reverse.find? fun bullet => bullet.id == id := by
    intro document
    rw [← List.map_reverse, List.find?_map]
    rfl
  rw [cut, cut, map_bullets_of_frame frame]

theorem map_naming_of_frame (id : String) :
    (later.bullets.filter fun other => mentions other id).map Line.unmarked =
      (first.bullets.filter fun other => mentions other id).map Line.unmarked := by
  have cut : ∀ document : Document,
      (document.bullets.filter fun other => mentions other id).map Line.unmarked =
        (document.bullets.map Line.unmarked).filter fun other => mentions other id := by
    intro document
    rw [List.filter_map]
    rfl
  rw [cut, cut, map_bullets_of_frame frame]

include same

/-- What a bullet is linked with does not depend on marks. -/
theorem map_connections_of_frame :
    (later.connections now).map Line.unmarked = (first.connections bullet).map Line.unmarked := by
  have cut : ∀ (document : Document) (line : Line),
      (document.connections line).map Line.unmarked =
        uniqueBy (fun first second => first.index == second.index)
          ((line.linkIds.filterMap (fun id => (document.findById? id).map Line.unmarked) ++
            (document.bullets.filter fun other => mentions other line.id).map
              Line.unmarked).filter fun other => other.index != line.index) := by
    intro document line
    rw [connections, ← List.map_filterMap, ← List.map_append, List.filter_map,
      uniqueBy_map_unmarked]
    rfl
  rw [cut, cut, Line.linkIds_eq_of_unmarked same, Line.id_eq_of_unmarked same,
    Line.index_eq_of_unmarked same, map_naming_of_frame frame,
    funext (map_findById?_of_frame frame)]

end Frame

theorem map_flatMap_congr {one other : List Line} {linked linkedLater : Line → List Line}
    (same : one.map Line.unmarked = other.map Line.unmarked)
    (each : ∀ now before, now.unmarked = before.unmarked →
      (linked now).map Line.unmarked = (linkedLater before).map Line.unmarked) :
    (one.flatMap linked).map Line.unmarked = (other.flatMap linkedLater).map Line.unmarked := by
  induction one generalizing other with
  | nil => rw [List.map_eq_nil_iff.mp same.symm]; rfl
  | cons now rest inductionHypothesis =>
    obtain ⟨before, others, rfl, head, tail⟩ := List.map_eq_cons_iff.mp same.symm
    rw [List.flatMap_cons, List.flatMap_cons, List.map_append, List.map_append,
      each now before head.symm, inductionHypothesis tail.symm]

section Frame

variable (frame : later.lines.map Line.unmarked = first.lines.map Line.unmarked)
  {now bullet : Line} (same : now.unmarked = bullet.unmarked)

include frame same

theorem map_connectedWith_of_frame (withAncestors : Bool) :
    (later.connectedWith withAncestors now).map Line.unmarked =
      (first.connectedWith withAncestors bullet).map Line.unmarked := by
  have each : ∀ now before : Line, now.unmarked = before.unmarked →
      (later.connections now).map Line.unmarked = (first.connections before).map Line.unmarked :=
    fun _ _ same => map_connections_of_frame frame same
  have below : (later.descendants now).map Line.unmarked =
      (first.descendants bullet).map Line.unmarked := by
    rw [map_descendants_of_frame frame, descendants_eq_of_unmarked same]
  have above : (later.ancestors now).map Line.unmarked =
      (first.ancestors bullet).map Line.unmarked := by
    rw [map_ancestors_of_frame frame, ancestors_eq_of_unmarked same]
  rw [connectedWith, connectedWith, List.map_append, List.map_append, List.map_append,
    List.map_append, each now bullet same, map_flatMap_congr below each]
  cases withAncestors with
  | false => rfl
  | true => exact congrArg _ (map_flatMap_congr above each)

theorem map_revealOrder_of_frame (withAncestors : Bool) :
    (later.revealOrder withAncestors now).map Line.unmarked =
      (first.revealOrder withAncestors bullet).map Line.unmarked := by
  have cut : ∀ (document : Document) (line : Line),
      (document.revealOrder withAncestors line).map Line.unmarked =
        line.unmarked :: uniqueBy (fun first second => first.index == second.index)
          (((document.connectedWith withAncestors line).map Line.unmarked).filter fun other =>
            other.index != line.index) := by
    intro document line
    rw [revealOrder, List.map_cons, List.filter_map, uniqueBy_map_unmarked]
    rfl
  rw [cut, cut, same, Line.index_eq_of_unmarked same, map_connectedWith_of_frame frame same]

end Frame

/-! ### Setting a visibility -/

/-- What setting a visibility at some positions makes of a line. -/
def remark (document : Document) (visibility : Visibility) (leaveHidden : Bool)
    (indexes : List Int) (line : Line) : Line :=
  if line.index ∈ indexes then line.remarked visibility leaveHidden (document.isParent line)
  else line

theorem IsPlaced.lineAt?_of_index (placed : document.IsPlaced) {line : Line} {index : Int}
    (member : line ∈ document.lines) (here : line.index = index) :
    document.lineAt? index = some line := by
  rw [← here]
  exact placed.lineAt?_of_mem member

theorem lines_setVisibility (placed : document.IsPlaced) (visibility : Visibility)
    (leaveHidden : Bool) (index : Int) :
    (document.setVisibility visibility leaveHidden index).lines =
      document.lines.map (document.remark visibility leaveHidden [index]) := by
  have kept : (∀ line ∈ document.lines, line.index = index →
      line.remarked visibility leaveHidden (document.isParent line) = line) →
      document.lines = document.lines.map (document.remark visibility leaveHidden [index]) := by
    intro same
    refine ((List.map_congr_left fun line member => ?_).trans (List.map_id _)).symm
    rw [remark]
    split
    · next here => exact same line member (List.mem_singleton.mp here)
    · rfl
  rw [setVisibility]
  cases found : document.lineAt? index with
  | none =>
    refine kept fun line member here => ?_
    rw [placed.lineAt?_of_index member here] at found
    exact absurd found (Option.some_ne_none line)
  | some line =>
    dsimp only
    split
    · next left =>
      refine kept fun other member here => ?_
      obtain rfl := Option.some.inj ((placed.lineAt?_of_index member here).symm.trans found)
      exact if_pos (by simpa using left)
    · next changes =>
      rw [lines_changeLine]
      refine List.map_congr_left fun other member => ?_
      rw [remark]
      by_cases here : other.index = index
      · obtain rfl := Option.some.inj ((placed.lineAt?_of_index member here).symm.trans found)
        rw [← here, Line.changeAt_self, if_pos (List.mem_singleton.mpr rfl), Line.remarked,
          if_neg (by simpa using changes)]
      · rw [Line.changeAt_of_ne here, if_neg (mt List.mem_singleton.mp here)]

theorem remark_of_frame (frame : later.lines.map Line.unmarked = first.lines.map Line.unmarked) :
    later.remark = first.remark := by
  funext visibility leaveHidden indexes line
  rw [remark, remark, isParent_of_frame frame]

theorem unmarked_remark (visibility : Visibility) (leaveHidden : Bool) (indexes : List Int)
    (line : Line) :
    (document.remark visibility leaveHidden indexes line).unmarked = line.unmarked := by
  rw [remark]
  split
  · exact line.unmarked_remarked ..
  · rfl

/-- A change that keeps everything but the marks leaves the frame of a document alone. -/
theorem frame_of_lines_eq {change : Line → Line} (lines : later.lines = first.lines.map change)
    (keeps : ∀ line, (change line).unmarked = line.unmarked) :
    later.lines.map Line.unmarked = first.lines.map Line.unmarked := by
  rw [lines, List.map_map]
  exact List.map_congr_left fun line _ => keeps line

theorem remark_remark (visibility : Visibility) (leaveHidden : Bool) (former latter : List Int)
    (line : Line) :
    document.remark visibility leaveHidden latter
        (document.remark visibility leaveHidden former line) =
      document.remark visibility leaveHidden (former ++ latter) line := by
  have same := document.unmarked_remark visibility leaveHidden former line
  rw [remark, Line.index_eq_of_unmarked same, isParent_eq_of_unmarked same, remark, remark]
  by_cases inFormer : line.index ∈ former
  · rw [if_pos inFormer, if_pos (List.mem_append_left latter inFormer), Line.remarked_remarked,
      ite_self]
  · rw [if_neg inFormer]
    exact if_congr (by rw [List.mem_append, or_iff_right inFormer]) rfl rfl

theorem lines_setVisibilities (placed : document.IsPlaced) (visibility : Visibility)
    (leaveHidden : Bool) (targets : List Line) :
    (document.setVisibilities visibility leaveHidden targets).lines =
      document.lines.map (document.remark visibility leaveHidden (targets.map Line.index)) := by
  induction targets generalizing document with
  | nil => exact (List.map_id document.lines).symm
  | cons target rest inductionHypothesis =>
    have next := lines_setVisibility placed visibility leaveHidden target.index
    have frame := frame_of_lines_eq next (unmarked_remark visibility leaveHidden [target.index])
    have others := inductionHypothesis (isPlaced_of_frame frame placed)
    rw [next, remark_of_frame frame, List.map_map] at others
    exact others.trans (List.map_congr_left fun line _ =>
      remark_remark visibility leaveHidden [target.index] (rest.map Line.index) line)

theorem remark_normal (indexes : List Int) (line : Line) :
    document.remark .normal false indexes line =
      line.withMark (if line.index ∈ indexes then .normal else line.visibility) := by
  rw [remark]
  split
  · simp [Line.remarked, Line.withVisibility, Line.withMark]
  · rfl

theorem remark_fold (indexes : List Int) (line : Line) :
    document.remark .fold false indexes line =
      line.withMark
        (if line.index ∈ indexes then if document.isParent line then .fold else .normal
          else line.visibility) := by
  rw [remark]
  split
  · cases document.isParent line <;> simp [Line.remarked, Line.withVisibility, Line.withMark]
  · rfl

/-! ### Showing and revealing -/

/-- What showing everything below a bullet, and the bullet itself if it is hidden, makes of a
line. -/
def unhide (document : Document) (bullet line : Line) : Line :=
  document.remark .normal false ((document.descendants bullet).map Line.index)
    (line.changeAt bullet.index Line.unhidden)

theorem lines_unhideBelow (placed : document.IsPlaced) (bullet : Line) :
    (document.unhideBelow bullet).lines = document.lines.map (document.unhide bullet) := by
  have opened : (if ((document.lineAt? bullet.index).map
          fun now => now.visibility == .hide).getD false
        then document.setVisibility .normal false bullet.index else document).lines =
      document.lines.map (Line.changeAt bullet.index Line.unhidden) := by
    split
    · next hidden =>
      rw [lines_setVisibility placed]
      refine List.map_congr_left fun line member => ?_
      rw [remark_normal, Line.changeAt_unhidden]
      by_cases here : line.index = bullet.index
      · rw [placed.lineAt?_of_index member here, Option.map_some, Option.getD_some,
          beq_iff_eq] at hidden
        rw [if_pos (List.mem_singleton.mpr here), if_pos ⟨here, hidden⟩]
      · rw [if_neg (mt List.mem_singleton.mp here), if_neg fun both => here both.1]
    · next shown =>
      refine ((List.map_congr_left fun line member => ?_).trans (List.map_id _)).symm
      rw [Line.changeAt_unhidden, if_neg]
      · rfl
      · rintro ⟨here, hidden⟩
        rw [placed.lineAt?_of_index member here, Option.map_some, Option.getD_some,
          beq_iff_eq] at shown
        exact shown hidden
  rw [unhideBelow]
  generalize (if ((document.lineAt? bullet.index).map
          fun now => now.visibility == .hide).getD false
        then document.setVisibility .normal false bullet.index else document) = middle at opened ⊢
  have frame := frame_of_lines_eq opened fun line =>
    line.unmarked_changeAt bullet.index fun _ => rfl
  rw [setBelow, lines_setVisibilities (isPlaced_of_frame frame placed), opened,
    remark_of_frame frame, map_index_descendants_of_frame frame, List.map_map]
  rfl

theorem unmarked_unhide (bullet line : Line) :
    (document.unhide bullet line).unmarked = line.unmarked :=
  (unmarked_remark ..).trans (line.unmarked_changeAt bullet.index fun _ => rfl)

/-- Some line of the document is the given one up to its marks. -/
def HasLine (document : Document) (line : Line) : Prop :=
  line.unmarked ∈ document.lines.map Line.unmarked

theorem hasLine_of_mem {line : Line} (member : line ∈ document.bullets) : document.HasLine line :=
  List.mem_map_of_mem (List.mem_filter.mp member).1

theorem HasLine.isParent_eq (placed : document.IsPlaced) {bullet line : Line}
    (hasLine : document.HasLine bullet) (member : line ∈ document.lines)
    (here : line.index = bullet.index) : document.isParent line = document.isParent bullet := by
  obtain ⟨now, inside, same⟩ := List.mem_map.mp hasLine
  have found : now = line := List.inj_on_of_nodup_map placed inside member
    ((Line.index_eq_of_unmarked same).trans here.symm)
  rw [← found, isParent_eq_of_unmarked same]

/-- What revealing bullets one after the other makes of the visibility at a position. -/
def revealedMark (document : Document) (order : List Line) (index : Int)
    (visibility : Visibility) : Visibility :=
  order.foldl (fun sofar target => document.revealedMarks target sofar) (fun _ => visibility) index

/-- What revealing bullets one after the other makes of a line. -/
def revealEach (document : Document) (order : List Line) (line : Line) : Line :=
  line.withMark (document.revealedMark order line.index line.visibility)

theorem lines_reveal (placed : document.IsPlaced) {bullet : Line}
    (hasLine : document.HasLine bullet) :
    (document.reveal bullet).lines = document.lines.map (document.revealEach [bullet]) := by
  have opened := lines_setVisibilities placed .normal false (document.ancestors bullet)
  have openedFrame := frame_of_lines_eq opened (unmarked_remark _ _ _)
  have openedPlaced := isPlaced_of_frame openedFrame placed
  have folded := lines_setVisibility openedPlaced .fold false bullet.index
  have foldedFrame := (frame_of_lines_eq folded (unmarked_remark _ _ _)).trans openedFrame
  have foldedPlaced := isPlaced_of_frame foldedFrame placed
  rw [reveal, lines_unhideBelow foldedPlaced, folded, opened, List.map_map, List.map_map]
  refine List.map_congr_left fun line member => ?_
  rw [Function.comp_apply, Function.comp_apply, unhide, map_index_descendants_of_frame foldedFrame,
    remark_of_frame foldedFrame, remark_of_frame openedFrame, remark_normal, remark_normal,
    remark_fold, Line.changeAt_unhidden]
  simp only [Line.index_withMark, Line.visibility_withMark, Line.withMark_withMark,
    isParent_eq_of_unmarked (line.unmarked_withMark _), List.mem_singleton]
  rw [revealEach, revealedMark, List.foldl_cons, List.foldl_nil, revealedMarks]
  refine congrArg (fun visibility => line.withMark visibility) (if_congr Iff.rfl rfl ?_)
  by_cases here : line.index = bullet.index
  · rw [hasLine.isParent_eq placed member here, if_pos here, if_neg]
    rintro ⟨-, hidden⟩
    split at hidden <;> exact absurd hidden (by decide)
  · rw [if_neg fun both => here both.1, if_neg here, if_neg here]

theorem unmarked_revealEach (order : List Line) (line : Line) :
    (document.revealEach order line).unmarked = line.unmarked := rfl

theorem revealedMarks_of_frame
    (frame : later.lines.map Line.unmarked = first.lines.map Line.unmarked)
    {now bullet : Line} (same : now.unmarked = bullet.unmarked) :
    later.revealedMarks now = first.revealedMarks bullet := by
  funext marks index
  rw [revealedMarks, revealedMarks, map_index_descendants_of_frame frame,
    map_index_ancestors_of_frame frame, isParent_of_frame frame, ancestors_eq_of_unmarked same,
    descendants_eq_of_unmarked same, isParent_eq_of_unmarked same, Line.index_eq_of_unmarked same]

theorem revealEach_of_frame (frame : later.lines.map Line.unmarked = first.lines.map Line.unmarked)
    {now order : List Line} (same : now.map Line.unmarked = order.map Line.unmarked) :
    later.revealEach now = first.revealEach order := by
  have unmarkedOrder : ∀ (document : Document) (order : List Line),
      document.revealEach order = document.revealEach (order.map Line.unmarked) := by
    intro document order
    funext line
    rw [revealEach, revealEach, revealedMark, revealedMark, List.foldl_map]
    rfl
  have targets : later.revealedMarks = first.revealedMarks :=
    funext fun _ => revealedMarks_of_frame frame rfl
  funext line
  rw [unmarkedOrder later, unmarkedOrder first, same, revealEach, revealEach, revealedMark,
    revealedMark, targets]

/-- Revealing decides each mark by itself. -/
theorem revealedMarks_congr {marks others : Int → Visibility} {index : Int}
    (same : marks index = others index) (bullet : Line) :
    document.revealedMarks bullet marks index = document.revealedMarks bullet others index := by
  rw [revealedMarks, revealedMarks, same]

theorem foldl_revealedMarks_congr {marks others : Int → Visibility} {index : Int}
    (same : marks index = others index) (order : List Line) :
    order.foldl (fun sofar target => document.revealedMarks target sofar) marks index =
      order.foldl (fun sofar target => document.revealedMarks target sofar) others index := by
  induction order generalizing marks others with
  | nil => exact same
  | cons target rest inductionHypothesis =>
    exact inductionHypothesis (revealedMarks_congr same target)

theorem revealEach_revealEach (target : Line) (rest : List Line) (line : Line) :
    document.revealEach rest (document.revealEach [target] line) =
      document.revealEach (target :: rest) line := by
  have once : document.revealedMarks target (fun _ => line.visibility) line.index =
      (document.revealEach [target] line).visibility := rfl
  exact congrArg (fun visibility => line.withMark visibility)
    (foldl_revealedMarks_congr once rest).symm

theorem lines_reveals (placed : document.IsPlaced) {order : List Line}
    (hasLines : ∀ target ∈ order, document.HasLine target) :
    (order.foldl (fun sofar target => sofar.reveal target) document).lines =
      document.lines.map (document.revealEach order) := by
  induction order generalizing document with
  | nil => exact (List.map_id document.lines).symm
  | cons target rest inductionHypothesis =>
    rw [List.forall_mem_cons] at hasLines
    have next := lines_reveal placed hasLines.1
    have frame := frame_of_lines_eq next (unmarked_revealEach [target])
    have others := inductionHypothesis (isPlaced_of_frame frame placed) fun other inside => by
      rw [HasLine, frame]
      exact hasLines.2 other inside
    rw [next, revealEach_of_frame frame rfl, List.map_map] at others
    exact others.trans (List.map_congr_left fun line _ => revealEach_revealEach target rest line)

theorem mem_bullets_of_mem_revealOrder (placed : document.IsPlaced) {withAncestors : Bool}
    {bullet revealed : Line} (member : bullet ∈ document.bullets)
    (listed : revealed ∈ document.revealOrder withAncestors bullet) :
    revealed ∈ document.bullets := by
  rcases (mem_revealOrder_iff placed).mp listed with rfl | ⟨connected, -⟩
  · exact member
  · exact mem_bullets_of_mem_connectedWith connected

end Document

/-! ### Edits of one bullet -/

/-- What an edit of one bullet makes of each line of a document. -/
def LineEdit.change (edit : LineEdit) (document : Document) (bullet : Line) : Line → Line :=
  match edit with
  | setVisibility visibility leaveHidden => document.remark visibility leaveHidden [bullet.index]
  | fold => document.remark .fold true [bullet.index]
  | unfold => document.remark .normal true [bullet.index]
  | hide => document.remark .hide false [bullet.index]
  | unhide => document.remark .normal false [bullet.index]
  | foldChildren => document.remark .fold true ((document.descendants bullet).map Line.index)
  | unfoldChildren => document.remark .normal true ((document.descendants bullet).map Line.index)
  | hideChildren => document.remark .hide false ((document.descendants bullet).map Line.index)
  | unhideChildren => document.unhide bullet
  | highlight toggle => Line.changeAt bullet.index (Line.lit toggle)
  | reveal highlighted =>
    if highlighted then
      Line.changeAt bullet.index (Line.lit false) ∘ document.revealEach [bullet]
    else document.revealEach [bullet]
  | connect withAncestors =>
    Line.changeAt bullet.index (Line.lit false) ∘
      document.revealEach (document.revealOrder withAncestors bullet)
  | markEdited => id

namespace LineEdit

open Document

variable {document later first : Document} {bullet : Line}

theorem lines_apply (edit : LineEdit) (placed : document.IsPlaced)
    (member : bullet ∈ document.bullets) :
    (edit.apply bullet document).lines = document.lines.map (edit.change document bullet) := by
  have revealed : (document.reveal bullet).lines =
      document.lines.map (document.revealEach [bullet]) :=
    lines_reveal placed (hasLine_of_mem member)
  cases edit with
  | setVisibility visibility leaveHidden =>
    exact lines_setVisibility placed visibility leaveHidden bullet.index
  | fold => exact lines_setVisibility placed .fold true bullet.index
  | unfold => exact lines_setVisibility placed .normal true bullet.index
  | hide => exact lines_setVisibility placed .hide false bullet.index
  | unhide => exact lines_setVisibility placed .normal false bullet.index
  | foldChildren => exact lines_setVisibilities placed .fold true (document.descendants bullet)
  | unfoldChildren => exact lines_setVisibilities placed .normal true (document.descendants bullet)
  | hideChildren => exact lines_setVisibilities placed .hide false (document.descendants bullet)
  | unhideChildren => exact lines_unhideBelow placed bullet
  | highlight toggle => exact lines_changeLine bullet.index document
  | reveal highlighted =>
    cases highlighted with
    | false => exact revealed
    | true =>
      show ((document.reveal bullet).highlight false bullet.index).lines = _
      rw [Document.highlight, lines_changeLine, revealed, List.map_map]
      rfl
  | connect withAncestors =>
    show (document.connect withAncestors bullet).lines = _
    rw [connect_eq, Document.highlight, lines_changeLine, lines_reveals placed fun target listed =>
      hasLine_of_mem (mem_bullets_of_mem_revealOrder placed member listed), List.map_map]
    rfl
  | markEdited =>
    refine (lines_changeLine bullet.index document).trans (List.map_congr_left fun line _ => ?_)
    exact ite_self line

theorem unmarked_change (edit : LineEdit) (document : Document) (bullet line : Line) :
    (edit.change document bullet line).unmarked = line.unmarked := by
  have lit : ∀ (toggle : Bool) (line : Line),
      (line.changeAt bullet.index (Line.lit toggle)).unmarked = line.unmarked :=
    fun toggle line => line.unmarked_changeAt bullet.index fun _ => rfl
  cases edit with
  | unhideChildren => exact document.unmarked_unhide bullet line
  | highlight toggle => exact lit toggle line
  | reveal highlighted =>
    cases highlighted with
    | false => rfl
    | true => exact lit false _
  | connect withAncestors => exact lit false _
  | markEdited => rfl
  | _ => exact unmarked_remark ..

/-- What an edit makes of a line does not depend on the marks around it. -/
theorem change_of_frame (edit : LineEdit)
    (frame : later.lines.map Line.unmarked = first.lines.map Line.unmarked) {now : Line}
    (same : now.unmarked = bullet.unmarked) : edit.change later now = edit.change first bullet := by
  have index := Line.index_eq_of_unmarked same
  have below : (later.descendants now).map Line.index =
      (first.descendants bullet).map Line.index := by
    rw [map_index_descendants_of_frame frame, descendants_eq_of_unmarked same]
  have revealed : later.revealEach [now] = first.revealEach [bullet] :=
    revealEach_of_frame frame (congrArg (fun line => [line]) same)
  cases edit with
  | unhideChildren =>
    show later.unhide now = first.unhide bullet
    funext line
    rw [Document.unhide, Document.unhide, remark_of_frame frame, below, index]
  | highlight toggle => rw [change, change, index]
  | reveal highlighted => rw [change, change, revealed, index]
  | connect withAncestors =>
    rw [change, change, index,
      revealEach_of_frame frame (map_revealOrder_of_frame frame same withAncestors)]
  | markEdited => rfl
  | _ => simp only [change, remark_of_frame frame, below, index]

end LineEdit
end OutlineDiagram
