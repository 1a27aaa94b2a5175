/-
This file says which bullets a diagram shows after a bullet was revealed together
with what it is linked with. The bullets are revealed one after the other, and each
of them folds itself and opens everything above and below it. So a revealed bullet
is shown exactly if none of the bullets above it is the last one revealed on its own
branch: that one stays folded and takes the bullet out of the diagram again.
-/

import OutlineDiagram.Proofs.Document.Connections
import OutlineDiagram.Proofs.Document.Marks

namespace OutlineDiagram

/-! ### Bullets that are shown -/

theorem outermostMarked?_eq_none_iff {chain : List Line} :
    outermostMarked? chain = none ↔ ∀ above ∈ chain, above.visibility = .normal := by
  rw [outermostMarked?_eq_find?, List.find?_eq_none]
  simp

/-- After visibility was pushed down a bullet is shown if nothing marked was above it and it was not
hidden itself. -/
theorem Line.shown_pushedDown_iff_clear (chain : List Line) (isParent : Bool) (line : Line) :
    ((line.pushedDown (outermostMarked? chain) isParent).visibility = .normal ∨
        (line.pushedDown (outermostMarked? chain) isParent).visibility = .fold) ↔
      (∀ above ∈ chain, above.visibility = .normal) ∧ line.visibility ≠ .hide := by
  rw [← outermostMarked?_eq_none_iff]
  cases marked : outermostMarked? chain with
  | some outermost =>
    have gone := visibility_pushedDown_some outermost isParent line
    refine iff_of_false (fun shown => ?_) fun clear => Option.some_ne_none _ clear.1
    rcases gone with same | same <;> rw [same] at shown <;> exact absurd shown (by decide)
  | none =>
    rw [Line.pushedDown_of_none]
    cases line.visibility <;> cases isParent <;> simp

namespace Document

variable {document later : Document}

/-- The diagram of a document in which visibility was pushed down shows the bullets that have
nothing marked above them and are not hidden. -/
theorem exists_compile_propagateVisibility (placed : document.IsPlaced)
    (legal : firstBadIndent? 0 document.bullets = none)
    (distinct : (document.bullets.map Line.id).Nodup) :
    ∃ graph, Graph.compile true document.propagateVisibility.lines = .ok graph ∧
      ∀ bullet ∈ document.bullets, bullet.id ∈ graph.nodeIds ↔
        (∀ above ∈ document.ancestors bullet, above.visibility = .normal) ∧
          bullet.visibility ≠ .hide := by
  have valid : ∀ line ∈ document.bullets, line.isBullet = true :=
    fun line member => isBullet_of_mem_bulletsOf member
  have each := pushedBullets_eq_map placed (List.nil_append document.bullets).symm
  refine ⟨_, compile_lines_propagateVisibility legal, fun bullet member => ?_⟩
  have inside : bullet.pushedDown (outermostMarked? (document.ancestors bullet))
      (document.isParent bullet) ∈ pushedBullets [] document.bullets :=
    each ▸ List.mem_map_of_mem member
  have shown := mem_nodeIds_pushedBullets_iff valid distinct inside
  rw [Line.id_pushedDown, Line.shown_pushedDown_iff_clear] at shown
  rw [Graph.nodeIds_normalize]
  exact shown

/-! ### Bullets around a bullet -/

section Around

variable (placed : document.IsPlaced) {bullet : Line} (member : bullet ∈ document.bullets)

include placed member

theorem of_mem_descendants {below : Line} (inside : below ∈ document.descendants bullet) :
    below ∈ document.bullets ∧ bullet.depth < below.depth := by
  obtain ⟨earlier, later, split⟩ := List.append_of_mem member
  rw [(family_of_split placed split).2.1] at inside
  have deeper : Forest.isDeeper Line.depth bullet.depth below = true :=
    List.mem_takeWhile_imp inside
  refine ⟨?_, of_decide_eq_true deeper⟩
  rw [split]
  exact List.mem_append_right _ (List.mem_cons_of_mem _ ((List.takeWhile_sublist _).subset inside))

theorem of_mem_ancestors {above : Line} (inside : above ∈ document.ancestors bullet) :
    above ∈ document.bullets ∧ bullet ∈ document.descendants above := by
  have isBullet : above ∈ document.bullets := by
    obtain ⟨earlier, later, split⟩ := List.append_of_mem member
    rw [(family_of_split placed split).1] at inside
    rw [split]
    exact List.mem_append_left _ (List.mem_reverse.mp ((shallowerChain_sublist _ _).subset inside))
  exact ⟨isBullet, (mem_descendants_iff_of_placed placed isBullet member).mpr inside⟩

end Around

/-- Bullets are told apart by their positions. -/
theorem IsPlaced.mem_map_index_iff (placed : document.IsPlaced) {bullet : Line}
    (member : bullet ∈ document.bullets) {others : List Line}
    (inside : ∀ other ∈ others, other ∈ document.bullets) :
    bullet.index ∈ others.map Line.index ↔ bullet ∈ others := by
  refine ⟨fun found => ?_, fun found => List.mem_map_of_mem found⟩
  obtain ⟨other, isOther, same⟩ := List.mem_map.mp found
  rwa [← placed.bullet_unique (inside other isOther) member same]

/-! ### Marks after revealing -/

/-- The other bullet is the bullet itself or on a way through it. -/
def sharesBranch (document : Document) (bullet other : Line) : Bool :=
  other == bullet || (document.ancestors bullet).contains other ||
    (document.descendants bullet).contains other

/-- Revealing bullets in an order leaves a bullet folded: it is the last one revealed of the bullets
above it, below it and itself. -/
def LeftFolded (document : Document) (order : List Line) (bullet : Line) : Prop :=
  (order.filter (document.sharesBranch bullet)).getLast? = some bullet

instance (document : Document) (order : List Line) :
    DecidablePred (document.LeftFolded order) := fun bullet =>
  inferInstanceAs (Decidable ((order.filter (document.sharesBranch bullet)).getLast? = some bullet))

theorem sharesBranch_iff {bullet other : Line} :
    document.sharesBranch bullet other = true ↔
      other = bullet ∨ other ∈ document.ancestors bullet ∨ other ∈ document.descendants bullet := by
  rw [sharesBranch, Bool.or_eq_true, Bool.or_eq_true, beq_iff_eq, List.contains_iff_mem,
    List.contains_iff_mem, or_assoc]

/-- A bullet that is revealed last folds itself and no other one of its branch. -/
theorem leftFolded_concat_of_sharesBranch {order : List Line} {bullet last : Line}
    (shared : document.sharesBranch bullet last = true) :
    document.LeftFolded (order ++ [last]) bullet ↔ last = bullet := by
  rw [LeftFolded, List.filter_append, List.filter_cons_of_pos shared, List.filter_nil,
    List.getLast?_concat, Option.some_inj]

theorem leftFolded_concat_of_apart {order : List Line} {bullet last : Line}
    (apart : ¬ document.sharesBranch bullet last = true) :
    document.LeftFolded (order ++ [last]) bullet ↔ document.LeftFolded order bullet := by
  rw [LeftFolded, List.filter_append, List.filter_cons_of_neg apart, List.filter_nil,
    List.append_nil, LeftFolded]

theorem revealedMarks_ne_hide {marks : Int → Visibility} {index : Int} (bullet : Line)
    (shown : marks index ≠ .hide) : document.revealedMarks bullet marks index ≠ .hide := by
  rw [revealedMarks]
  split
  · decide
  · split
    · split <;> decide
    · split
      · decide
      · exact shown

theorem revealedMarks_self_ne_hide (bullet : Line) (marks : Int → Visibility) :
    document.revealedMarks bullet marks bullet.index ≠ .hide := by
  rw [revealedMarks, if_pos rfl]
  split
  · decide
  · split <;> decide

section Step

variable (placed : document.IsPlaced) {revealed other : Line}
  (member : revealed ∈ document.bullets) (otherMember : other ∈ document.bullets)
  (marks : Int → Visibility)

include placed member

theorem index_mem_descendants_iff (isBullet : other ∈ document.bullets) :
    other.index ∈ (document.descendants revealed).map Line.index ↔
      other ∈ document.descendants revealed :=
  placed.mem_map_index_iff isBullet fun _ inside => (of_mem_descendants placed member inside).1

theorem index_mem_ancestors_iff (isBullet : other ∈ document.bullets) :
    other.index ∈ (document.ancestors revealed).map Line.index ↔
      other ∈ document.ancestors revealed :=
  placed.mem_map_index_iff isBullet fun _ inside => (of_mem_ancestors placed member inside).1

/-- A bullet with something below it is folded when it is revealed. -/
theorem revealedMarks_self (hasBelow : document.descendants revealed ≠ []) :
    document.revealedMarks revealed marks revealed.index = .fold := by
  have notBelow : revealed ∉ document.descendants revealed := fun inside =>
    absurd (of_mem_descendants placed member inside).2 (Int.lt_irrefl _)
  have isParent : document.isParent revealed = true := by
    rw [isParent_eq placed member]
    simpa using hasBelow
  rw [revealedMarks, if_neg (mt (index_mem_descendants_iff placed member member).mp notBelow),
    if_pos rfl, if_pos isParent]

include otherMember

/-- Revealing a bullet opens what is above and below it. -/
theorem revealedMarks_of_branch (different : other ≠ revealed)
    (shared : document.sharesBranch other revealed = true) :
    document.revealedMarks revealed marks other.index = .normal := by
  have elsewhere : other.index ≠ revealed.index := fun same =>
    different (placed.bullet_unique otherMember member same)
  rw [revealedMarks, if_neg elsewhere]
  rcases (sharesBranch_iff.mp shared).resolve_left different.symm with above | below
  · have isBelow := (of_mem_ancestors placed otherMember above).2
    rw [if_pos ((index_mem_descendants_iff placed member otherMember).mpr isBelow)]
  · have isAbove := (mem_descendants_iff_of_placed placed otherMember member).mp below
    rw [if_pos ((index_mem_ancestors_iff placed member otherMember).mpr isAbove), ite_self]

/-- Revealing a bullet leaves other branches alone. -/
theorem revealedMarks_of_apart (apart : ¬ document.sharesBranch other revealed = true) :
    document.revealedMarks revealed marks other.index = marks other.index := by
  rw [sharesBranch_iff, not_or, not_or] at apart
  obtain ⟨different, notAbove, notBelow⟩ := apart
  have elsewhere : other.index ≠ revealed.index := fun same =>
    different (placed.bullet_unique member otherMember same.symm)
  have isNotBelow : other ∉ document.descendants revealed := fun below =>
    notAbove ((mem_descendants_iff_of_placed placed member otherMember).mp below)
  have isNotAbove : other ∉ document.ancestors revealed := fun above =>
    notBelow (of_mem_ancestors placed member above).2
  rw [revealedMarks,
    if_neg (mt (index_mem_descendants_iff placed member otherMember).mp isNotBelow),
    if_neg elsewhere, if_neg (mt (index_mem_ancestors_iff placed member otherMember).mp isNotAbove)]

end Step

/-- After bullets were revealed one after the other, none of them is hidden, and above them just
those are folded that are left folded. -/
theorem marks_of_reveals (placed : document.IsPlaced) {order : List Line}
    (members : ∀ revealed ∈ order, revealed ∈ document.bullets) (marks : Int → Visibility)
    {target : Line} (inside : target ∈ order) :
    let after := order.foldl (fun sofar revealed => document.revealedMarks revealed sofar) marks
    after target.index ≠ .hide ∧ ∀ upper ∈ document.ancestors target,
      after upper.index = if document.LeftFolded order upper then .fold else .normal := by
  induction order using List.reverseRecOn with
  | nil => exact absurd inside List.not_mem_nil
  | append_singleton rest last inductionHypothesis =>
    have restMembers : ∀ revealed ∈ rest, revealed ∈ document.bullets := fun revealed earlier =>
      members revealed (List.mem_append_left _ earlier)
    have lastMember : last ∈ document.bullets :=
      members last (List.mem_append_right _ List.mem_cons_self)
    have targetMember : target ∈ document.bullets := members target inside
    rw [List.foldl_append, List.foldl_cons, List.foldl_nil]
    dsimp only
    refine ⟨?_, fun upper above => ?_⟩
    · rcases List.mem_append.mp inside with earlier | isLast
      · exact revealedMarks_ne_hide last (inductionHypothesis restMembers earlier).1
      · rw [List.mem_singleton.mp isLast]
        exact revealedMarks_self_ne_hide last _
    · obtain ⟨overMember, below⟩ := of_mem_ancestors placed targetMember above
      by_cases shared : document.sharesBranch upper last = true
      · by_cases same : last = upper
        · rw [if_pos ((leftFolded_concat_of_sharesBranch shared).mpr same), ← same]
          exact revealedMarks_self placed lastMember _ (List.ne_nil_of_mem (same ▸ below))
        · rw [if_neg (mt (leftFolded_concat_of_sharesBranch shared).mp same)]
          exact revealedMarks_of_branch placed lastMember overMember _ (Ne.symm same) shared
      · -- The last one is on another branch, so it is not the target.
        rw [revealedMarks_of_apart placed lastMember overMember _ shared]
        have earlier : target ∈ rest := by
          refine (List.mem_append.mp inside).resolve_right fun isLast => shared ?_
          rw [← List.mem_singleton.mp isLast]
          exact sharesBranch_iff.mpr (Or.inr (Or.inr below))
        rw [(inductionHypothesis restMembers earlier).2 upper above]
        exact if_congr (leftFolded_concat_of_apart shared).symm rfl rfl

/-! ### Diagrams of marked documents -/

theorem mem_lines_of_mem_ancestors {bullet above : Line}
    (inside : above ∈ document.ancestors bullet) : above ∈ document.lines := by
  have before := (shallowerChain_sublist _ _).subset inside
  exact (List.takeWhile_sublist _).subset (List.mem_reverse.mp before)

/-- What a diagram shows of a document with other marks is told by these marks and by what was above
each bullet before. -/
theorem MarkedBy.exists_compile {first : Document} {marks : Int → Visibility}
    (marked : later.MarkedBy marks first) (placed : first.IsPlaced)
    (legal : firstBadIndent? 0 first.bullets = none)
    (distinct : (first.bullets.map Line.id).Nodup) :
    ∃ graph, Graph.compile true later.propagateVisibility.lines = .ok graph ∧
      ∀ bullet ∈ first.bullets, bullet.id ∈ graph.nodeIds ↔
        (∀ above ∈ first.ancestors bullet, marks above.index = .normal) ∧
          marks bullet.index ≠ .hide := by
  have frame := marked.frame
  have laterLegal : firstBadIndent? 0 later.bullets = none := by
    have places := congrArg (List.map fun line => (line.index, line.depth))
      (map_bullets_of_frame frame)
    rw [List.map_map, List.map_map] at places
    exact (firstBadIndent?_congr places 0).trans legal
  have laterDistinct : (later.bullets.map Line.id).Nodup := by
    have ids := congrArg (List.map Line.id) (map_bullets_of_frame frame)
    rw [List.map_map, List.map_map] at ids
    exact (congrArg List.Nodup ids).mpr distinct
  obtain ⟨graph, compiled, shown⟩ :=
    exists_compile_propagateVisibility (isPlaced_of_frame frame placed) laterLegal laterDistinct
  refine ⟨graph, compiled, fun bullet member => ?_⟩
  obtain ⟨now, nowMember, same⟩ := exists_mem_bullets_of_frame frame member
  have isShown := shown now nowMember
  rw [Line.id_eq_of_unmarked same, ancestors_eq_of_unmarked same,
    marked.bullet_visibility nowMember, Line.index_eq_of_unmarked same] at isShown
  refine isShown.trans (and_congr_left' ?_)
  calc (∀ above ∈ later.ancestors bullet, above.visibility = .normal)
    _ ↔ ∀ above ∈ later.ancestors bullet, marks above.index = .normal :=
      forall₂_congr fun above inside => by
        rw [marked.visibility_eq above (mem_lines_of_mem_ancestors inside)]
    _ ↔ ∀ index ∈ (later.ancestors bullet).map Line.index, marks index = .normal := by
      rw [List.forall_mem_map]
    _ ↔ ∀ above ∈ first.ancestors bullet, marks above.index = .normal := by
      rw [map_index_ancestors_of_frame frame, List.forall_mem_map]

/-! ### Connected bullets -/

/-- The bullets that are revealed when a bullet is shown with what it is linked with, in order. -/
def revealOrder (document : Document) (withAncestors : Bool) (bullet : Line) : List Line :=
  bullet :: uniqueBy (fun first second => first.index == second.index)
    ((document.connectedWith withAncestors bullet).filter fun other => other.index != bullet.index)

theorem mem_bullets_of_mem_connectedWith {withAncestors : Bool} {bullet other : Line}
    (member : other ∈ document.connectedWith withAncestors bullet) : other ∈ document.bullets := by
  have among : ∀ {lines : List Line}, other ∈ lines.flatMap document.connections →
      other ∈ document.bullets := fun listed => by
    obtain ⟨_, -, found⟩ := List.mem_flatMap.mp listed
    exact mem_bullets_of_mem_connections found
  rcases List.mem_append.mp member with own | above
  · rcases List.mem_append.mp own with direct | below
    · exact mem_bullets_of_mem_connections direct
    · exact among below
  · split at above
    · exact among above
    · exact absurd above List.not_mem_nil

theorem mem_revealOrder_iff (placed : document.IsPlaced) {withAncestors : Bool}
    {bullet revealed : Line} :
    revealed ∈ document.revealOrder withAncestors bullet ↔
      revealed = bullet ∨
        revealed ∈ document.connectedWith withAncestors bullet ∧ revealed.index ≠ bullet.index := by
  have isBullet : ∀ other ∈ (document.connectedWith withAncestors bullet).filter fun other =>
      other.index != bullet.index, other ∈ document.bullets := fun other listed =>
    mem_bullets_of_mem_connectedWith (List.mem_filter.mp listed).1
  rw [revealOrder, List.mem_cons, mem_uniqueBy_iff, List.mem_filter, bne_iff_ne]
  intro first firstListed second secondListed same
  exact placed.bullet_unique (isBullet first firstListed) (isBullet second secondListed)
    (eq_of_beq same)

theorem connect_eq (document : Document) (withAncestors : Bool) (bullet : Line) :
    document.connect withAncestors bullet =
      ((document.revealOrder withAncestors bullet).foldl
        (fun sofar revealed => sofar.reveal revealed) document).highlight false bullet.index := rfl

/-- In every session, after a bullet was revealed with what it is linked with and visibility was
pushed down, the diagram shows the bullet, or one that it is linked with, exactly if none of the
bullets above that one is left folded by the reveals. -/
theorem mem_nodeIds_connect_iff (unit : Int) (supply : IdSupply) (text : String)
    (edits : List Edit) (withAncestors : Bool) :
    let document := (ofText unit supply text).afterAll edits
    firstBadIndent? 0 document.bullets = none → (document.bullets.map Line.id).Nodup →
      ∀ bullet ∈ document.bullets,
        ∃ graph, Graph.compile true
            (document.connect withAncestors bullet).propagateVisibility.lines = .ok graph ∧
          ∀ target ∈ bullet :: document.connections bullet,
            target.id ∈ graph.nodeIds ↔
              ∀ upper ∈ document.ancestors target,
                ¬ document.LeftFolded (document.revealOrder withAncestors bullet) upper := by
  intro document legal distinct bullet member
  have placed : document.IsPlaced := isPlaced_afterAll unit supply text edits
  have members : ∀ revealed ∈ document.revealOrder withAncestors bullet,
      revealed ∈ document.bullets := by
    intro revealed listed
    rcases (mem_revealOrder_iff placed).mp listed with rfl | ⟨connected, -⟩
    · exact member
    · exact mem_bullets_of_mem_connectedWith connected
  obtain ⟨marks, start⟩ := MarkedBy.of_placed placed
  have marked := (start.reveals placed members).highlight false bullet.index
  rw [← connect_eq] at marked
  obtain ⟨graph, compiled, shown⟩ := marked.exists_compile placed legal distinct
  refine ⟨graph, compiled, fun target listed => ?_⟩
  have inside : target ∈ document.revealOrder withAncestors bullet := by
    refine (mem_revealOrder_iff placed).mpr ((List.mem_cons.mp listed).imp_right fun linked => ?_)
    have other := (List.mem_filter.mp (mem_of_mem_uniqueBy linked)).2
    exact ⟨List.mem_append_left _ (List.mem_append_left _ linked), bne_iff_ne.mp other⟩
  obtain ⟨notHidden, above⟩ := marks_of_reveals placed members marks inside
  rw [shown target (members target inside), and_iff_left notHidden]
  refine forall₂_congr fun upper isAbove => ?_
  rw [above upper isAbove]
  by_cases folded : document.LeftFolded (document.revealOrder withAncestors bullet) upper
  · simp [folded]
  · simp [folded]

/-- A bullet that is linked with another one and with what is above it: the one above is revealed
last, so it is shown folded and the other one is not shown. -/
theorem mem_nodeIds_connect_nested :
    let document := ofText 2 (IdSupply.ofListedHex []) "- A // a
  - B // b
- C // c >b >a
"
    firstBadIndent? 0 document.bullets = none ∧ (document.bullets.map Line.id).Nodup ∧
      ∃ bullet ∈ document.bullets, bullet.id = "c" ∧
        ∃ graph, Graph.compile true
            (document.connect false bullet).propagateVisibility.lines = .ok graph ∧
          "a" ∈ graph.nodeIds ∧ "b" ∉ graph.nodeIds := by
  intro document
  have legal : firstBadIndent? 0 document.bullets = none := by decide +kernel
  have distinct : (document.bullets.map Line.id).Nodup := by decide +kernel
  have order : ∃ bullet ∈ document.bullets, bullet.id = "c" ∧
      (∃ above ∈ document.connections bullet, above.id = "a" ∧
        ∀ upper ∈ document.ancestors above,
          ¬ document.LeftFolded (document.revealOrder false bullet) upper) ∧
      ∃ below ∈ document.connections bullet, below.id = "b" ∧
        ∃ upper ∈ document.ancestors below,
          document.LeftFolded (document.revealOrder false bullet) upper := by
    decide +kernel
  obtain ⟨bullet, member, isC, ⟨above, aboveLinked, isA, clear⟩, below, belowLinked, isB, upper,
    isUpper, folded⟩ := order
  refine ⟨legal, distinct, bullet, member, isC, ?_⟩
  obtain ⟨graph, compiled, shown⟩ := mem_nodeIds_connect_iff 2 (IdSupply.ofListedHex []) _ []
    false legal distinct bullet member
  refine ⟨graph, compiled, ?_, ?_⟩
  · rw [← isA, shown above (List.mem_cons_of_mem _ aboveLinked)]
    exact clear
  · rw [← isB, shown below (List.mem_cons_of_mem _ belowLinked)]
    exact fun unfolded => unfolded upper isUpper folded

/-- A bullet that is linked with the one above it is gone from the diagram: the one above is
revealed after it, and so is left folded. -/
theorem not_mem_nodeIds_connect_parent :
    let document := ofText 2 (IdSupply.ofListedHex []) "- A // a
  - B // b >a
"
    firstBadIndent? 0 document.bullets = none ∧ (document.bullets.map Line.id).Nodup ∧
      ∃ bullet ∈ document.bullets, bullet.id = "b" ∧
        ∃ graph, Graph.compile true
            (document.connect false bullet).propagateVisibility.lines = .ok graph ∧
          "b" ∉ graph.nodeIds := by
  intro document
  have folded : ∃ bullet ∈ document.bullets, bullet.id = "b" ∧
      firstBadIndent? 0 (document.connect false bullet).propagateVisibility.bullets = none ∧
      "b" ∉ (((Graph.ofBullets (document.connect false bullet).propagateVisibility.bullets).drawn
        true).normalize).nodeIds := by
    decide +kernel
  obtain ⟨bullet, member, isB, legalAfter, gone⟩ := folded
  exact ⟨by decide +kernel, by decide +kernel, bullet, member, isB, _,
    Graph.compile_eq_ok legalAfter true, gone⟩

end Document

end OutlineDiagram
