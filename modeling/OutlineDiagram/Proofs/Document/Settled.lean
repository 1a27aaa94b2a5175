/-
This file says what folding, unfolding and revealing a bullet do to the diagram of a
document whose markers are settled, so that pushing visibility down would change none
of them. There a bullet is shown exactly if everything above it is open and it is not
hidden itself. Folding a bullet takes away what is below it, unfolding it brings back
one level and no more, and revealing it takes away nothing else.
-/

import OutlineDiagram.Proofs.Document.Reveal

namespace OutlineDiagram

namespace Document

variable {document : Document}

/-! ### Settled markers -/

/-- Pushing visibility down leaves the marker of every bullet as it is. -/
def IsSettled (document : Document) : Prop :=
  document.propagateVisibility.bullets.map (fun bullet => bullet.visibility) =
    document.bullets.map fun bullet => bullet.visibility

instance : DecidablePred IsSettled := fun document =>
  inferInstanceAs (Decidable (document.propagateVisibility.bullets.map
    (fun bullet => bullet.visibility) = document.bullets.map fun bullet => bullet.visibility))

namespace IsSettled

variable (settled : document.IsSettled) (placed : document.IsPlaced) {bullet : Line}
  (member : bullet ∈ document.bullets)

include settled placed member

theorem visibility_eq :
    (bullet.pushedDown (outermostMarked? (document.ancestors bullet))
      (document.isParent bullet)).visibility = bullet.visibility := by
  have each := pushedBullets_eq_map placed (List.nil_append document.bullets).symm
  rw [IsSettled, bullets_propagateVisibility] at settled
  rw [List.reverse_nil] at each
  rw [each, List.map_map] at settled
  exact List.map_inj_left.mp settled bullet member

/-- Below a marked bullet everything is taken out of the diagram. -/
theorem gone_of_marked {above : Line} (isAbove : above ∈ document.ancestors bullet)
    (marked : above.visibility ≠ .normal) :
    bullet.visibility = .hide ∨ bullet.visibility = .foldHidden := by
  rw [← settled.visibility_eq placed member]
  cases found : outermostMarked? (document.ancestors bullet) with
  | none => exact absurd (outermostMarked?_eq_none_iff.mp found above isAbove) marked
  | some outermost => exact visibility_pushedDown_some outermost _ bullet

/-- A bullet that is fold-hidden has a marked one above it. -/
theorem not_foldHidden_of_clear
    (clear : ∀ above ∈ document.ancestors bullet, above.visibility = .normal) :
    bullet.visibility ≠ .foldHidden := by
  have same := settled.visibility_eq placed member
  rw [outermostMarked?_eq_none_iff.mpr clear] at same
  rw [← same]
  exact visibility_pushedDown_none _ bullet

/-- Where nothing above a bullet is hidden or folded, everything above it is normal. -/
theorem clear_of_open (isOpen : ∀ above ∈ document.ancestors bullet,
      above.visibility ≠ .hide ∧ above.visibility ≠ .fold) :
    ∀ above ∈ document.ancestors bullet, above.visibility = .normal := by
  induction known : document.ancestors bullet generalizing bullet with
  | nil => exact fun above inside => absurd inside List.not_mem_nil
  | cons parent further inductionHypothesis =>
    have parentMember : parent ∈ document.bullets :=
      (of_mem_ancestors placed member (known ▸ List.mem_cons_self)).1
    have chain := ancestors_eq_of_parent? placed member
    rw [parent?, known] at chain
    obtain rfl : further = document.ancestors parent := List.tail_eq_of_cons_eq chain
    rw [known, List.forall_mem_cons] at isOpen
    have furtherClear := inductionHypothesis parentMember isOpen.2 rfl
    refine List.forall_mem_cons.mpr ⟨?_, furtherClear⟩
    have notFoldHidden := settled.not_foldHidden_of_clear placed parentMember furtherClear
    cases visibility : parent.visibility with
    | normal => rfl
    | hide => exact absurd visibility isOpen.1.1
    | fold => exact absurd visibility isOpen.1.2
    | foldHidden => exact absurd visibility notFoldHidden

end IsSettled

/-! ### What a diagram shows -/

/-- With given marks a bullet is shown: everything above it is normal, and it is not hidden. -/
def ShownUnder (document : Document) (marks : Int → Visibility) (bullet : Line) : Prop :=
  (∀ above ∈ document.ancestors bullet, marks above.index = .normal) ∧ marks bullet.index ≠ .hide

/-- A document is marked by the visibilities of its lines. -/
theorem MarkedBy.shownUnder_iff {marks : Int → Visibility}
    (marked : document.MarkedBy marks document) {bullet : Line}
    (member : bullet ∈ document.bullets) :
    document.ShownUnder marks bullet ↔
      (∀ above ∈ document.ancestors bullet, above.visibility = .normal) ∧
        bullet.visibility ≠ .hide := by
  rw [ShownUnder, marked.bullet_visibility member]
  refine and_congr_left' (forall₂_congr fun above inside => ?_)
  rw [marked.visibility_eq above (mem_lines_of_mem_ancestors inside)]

/-- The diagram of a settled document shows the bullets that its marks show, also if visibility is
not pushed down before. -/
theorem IsSettled.exists_compile (settled : document.IsSettled) (placed : document.IsPlaced)
    (legal : firstBadIndent? 0 document.bullets = none)
    (distinct : (document.bullets.map Line.id).Nodup) {marks : Int → Visibility}
    (marked : document.MarkedBy marks document) :
    ∃ graph, Graph.compile true document.lines = .ok graph ∧ ∀ bullet ∈ document.bullets,
      bullet.id ∈ graph.nodeIds ↔ document.ShownUnder marks bullet := by
  refine ⟨_, Graph.compile_eq_ok legal true, fun bullet member => ?_⟩
  have valid : ∀ line ∈ document.bullets, line.isBullet = true :=
    fun line inside => isBullet_of_mem_bulletsOf inside
  have place : (document.ancestors bullet, bullet) ∈ withChains [] document.bullets := by
    have chains := withChains_bullets placed (List.nil_append document.bullets).symm
    rw [List.reverse_nil] at chains
    rw [chains]
    exact List.mem_map_of_mem member
  rw [Graph.nodeIds_normalize, marked.shownUnder_iff member]
  refine (mem_nodeIds_drawn valid distinct place).trans ?_
  rw [List.forall_mem_cons]
  constructor
  · rintro ⟨⟨shown, notHidden⟩, notFolded⟩
    exact ⟨settled.clear_of_open placed member fun above inside =>
      ⟨notHidden above inside, notFolded above inside⟩, shown⟩
  · rintro ⟨clear, shown⟩
    refine ⟨⟨shown, fun above inside => ?_⟩, fun above inside => ?_⟩
    · rw [clear above inside]
      decide
    · rw [clear above inside]
      decide

/-! ### Changing one mark -/

/-- The way up from a bullet goes on from each bullet on it as from that bullet itself. -/
theorem ancestors_suffix (placed : document.IsPlaced) {bullet other : Line}
    (otherMember : other ∈ document.bullets) (isAbove : bullet ∈ document.ancestors other) :
    bullet :: document.ancestors bullet <:+ document.ancestors other := by
  induction known : document.ancestors other generalizing other with
  | nil => exact absurd (known ▸ isAbove) List.not_mem_nil
  | cons parent further inductionHypothesis =>
    have parentMember : parent ∈ document.bullets :=
      (of_mem_ancestors placed otherMember (known ▸ List.mem_cons_self)).1
    have chain := ancestors_eq_of_parent? placed otherMember
    rw [parent?, known] at chain
    obtain rfl : further = document.ancestors parent := List.tail_eq_of_cons_eq chain
    rw [known] at isAbove
    rcases List.mem_cons.mp isAbove with rfl | higher
    · exact List.suffix_rfl
    · exact (inductionHypothesis parentMember higher rfl).trans (List.suffix_cons parent _)

/-- A bullet above another one is its parent or is above its parent. -/
theorem parent?_eq_or_exists (placed : document.IsPlaced) {bullet other : Line}
    (otherMember : other ∈ document.bullets) (isAbove : bullet ∈ document.ancestors other) :
    document.parent? other = some bullet ∨
      ∃ parent ∈ document.ancestors other, bullet ∈ document.ancestors parent := by
  have chain := ancestors_eq_of_parent? placed otherMember
  cases found : document.parent? other with
  | none =>
    rw [found] at chain
    exact absurd (chain ▸ isAbove) List.not_mem_nil
  | some parent =>
    rw [found] at chain
    rw [chain] at isAbove ⊢
    rcases List.mem_cons.mp isAbove with rfl | further
    · exact Or.inl rfl
    · exact Or.inr ⟨parent, List.mem_cons_self, further⟩

section Mark

variable (placed : document.IsPlaced) {bullet other : Line} (member : bullet ∈ document.bullets)
  (otherMember : other ∈ document.bullets) {marks : Int → Visibility} {visibility : Visibility}

include placed member

theorem notMem_ancestors_self : bullet ∉ document.ancestors bullet := fun inside =>
  absurd (of_mem_descendants placed member (of_mem_ancestors placed member inside).2).2
    (Int.lt_irrefl _)

omit member in
/-- A bullet that is shown has shown ones above it only. -/
theorem ShownUnder.of_below (otherMember : other ∈ document.bullets)
    (isAbove : bullet ∈ document.ancestors other) (shown : document.ShownUnder marks other) :
    document.ShownUnder marks bullet := by
  have further := (ancestors_suffix placed otherMember isAbove).subset
  refine ⟨fun above inside => shown.1 above (further (List.mem_cons_of_mem _ inside)), ?_⟩
  rw [shown.1 bullet isAbove]
  decide

include otherMember

theorem update_index_of_ne (different : other ≠ bullet) :
    Function.update marks bullet.index visibility other.index = marks other.index :=
  Function.update_of_ne (fun same => different (placed.bullet_unique otherMember member same)) ..

/-- Marking a bullet other than hidden matters below it only. -/
theorem shownUnder_update_of_notBelow (wasShown : marks bullet.index ≠ .hide)
    (isShown : visibility ≠ .hide) (notBelow : bullet ∉ document.ancestors other) :
    document.ShownUnder (Function.update marks bullet.index visibility) other ↔
      document.ShownUnder marks other := by
  refine and_congr (forall₂_congr fun above inside => ?_) ?_
  · have aboveMember := (of_mem_ancestors placed otherMember inside).1
    rw [update_index_of_ne placed member aboveMember fun same => notBelow (same ▸ inside)]
  · by_cases same : other = bullet
    · rw [same, Function.update_self]
      exact iff_of_true isShown wasShown
    · rw [update_index_of_ne placed member otherMember same]

/-- What is below a bullet is shown after marking the bullet: the bullet is normal now, and nothing
else is in the way. -/
theorem shownUnder_update_of_below (isAbove : bullet ∈ document.ancestors other) :
    document.ShownUnder (Function.update marks bullet.index visibility) other ↔
      visibility = .normal ∧
        (∀ above ∈ document.ancestors other, above ≠ bullet → marks above.index = .normal) ∧
        marks other.index ≠ .hide := by
  have different : other ≠ bullet := fun same =>
    notMem_ancestors_self placed member (same ▸ isAbove)
  rw [ShownUnder, update_index_of_ne placed member otherMember different, ← and_assoc]
  refine and_congr_left' ⟨fun clear => ⟨?_, fun above inside apart => ?_⟩, ?_⟩
  · rw [← clear bullet isAbove, Function.update_self]
  · rw [← clear above inside, update_index_of_ne placed member
      (of_mem_ancestors placed otherMember inside).1 apart]
  · rintro ⟨rfl, clear⟩ above inside
    by_cases same : above = bullet
    · rw [same, Function.update_self]
    · rw [update_index_of_ne placed member (of_mem_ancestors placed otherMember inside).1 same]
      exact clear above inside same

/-! ### Folding and unfolding -/

/-- Folding a bullet takes away what is below it, if it was shown. -/
theorem shownUnder_fold_iff :
    document.ShownUnder (document.setMarks .fold true bullet marks) other ↔
      document.ShownUnder marks other ∧
        ¬ (document.ShownUnder marks bullet ∧ other ∈ document.descendants bullet) := by
  rw [setMarks, mem_descendants_iff_of_placed placed member otherMember]
  by_cases hidden : marks bullet.index = .hide
  · rw [if_pos ⟨rfl, hidden⟩]
    exact (and_iff_left fun below => below.1.2 hidden).symm
  rw [if_neg fun left => hidden left.2]
  by_cases isAbove : bullet ∈ document.ancestors other
  · -- What is below a folded bullet is not shown, and it was shown only if the bullet was.
    have hasBelow : document.isParent bullet = true := by
      have below := (of_mem_ancestors placed otherMember isAbove).2
      rw [isParent_eq placed member]
      simpa using List.ne_nil_of_mem below
    rw [shownUnder_update_of_below placed member otherMember isAbove, hasBelow]
    refine iff_of_false (fun shown => absurd shown.1 (by decide)) fun kept => kept.2 ?_
    exact ⟨kept.1.of_below placed otherMember isAbove, isAbove⟩
  · rw [shownUnder_update_of_notBelow placed member otherMember hidden (by split <;> decide)
      isAbove]
    exact (and_iff_left fun below => isAbove below.2).symm

/-- Where only one of the bullets above a bullet is marked, everything above that one is normal. -/
theorem clear_above_of_clear (isAbove : bullet ∈ document.ancestors other)
    (clear : ∀ above ∈ document.ancestors other, above ≠ bullet → marks above.index = .normal) :
    ∀ above ∈ document.ancestors bullet, marks above.index = .normal := by
  have further := (ancestors_suffix placed otherMember isAbove).subset
  exact fun above inside => clear above (further (List.mem_cons_of_mem _ inside)) fun same =>
    notMem_ancestors_self placed member (same ▸ inside)

/-- In a settled document everything between a marked bullet and one below it is marked, so without
another marked bullet in the way the marked one is the parent. -/
theorem IsSettled.parent?_eq (settled : document.IsSettled)
    (isAbove : bullet ∈ document.ancestors other) (marked : bullet.visibility ≠ .normal)
    (clear : ∀ above ∈ document.ancestors other, above ≠ bullet → above.visibility = .normal) :
    document.parent? other = some bullet := by
  refine (parent?_eq_or_exists placed otherMember isAbove).resolve_right ?_
  rintro ⟨parent, isParent, further⟩
  have parentMember := (of_mem_ancestors placed otherMember isParent).1
  have different : parent ≠ bullet := fun same =>
    notMem_ancestors_self placed member (same ▸ further)
  have gone := settled.gone_of_marked placed parentMember further marked
  rw [clear parent isParent different] at gone
  exact absurd gone (by decide)

/-- Where nothing but a bullet is in the way of one below it, that one was shown before, or the
bullet was shown folded right above it. -/
theorem IsSettled.shownUnder_or_folded (settled : document.IsSettled)
    (marked : document.MarkedBy marks document) (isAbove : bullet ∈ document.ancestors other)
    (clear : ∀ above ∈ document.ancestors other, above ≠ bullet → marks above.index = .normal)
    (shown : marks bullet.index ≠ .hide) (otherShown : marks other.index ≠ .hide) :
    document.ShownUnder marks other ∨
      document.ShownUnder marks bullet ∧ bullet.visibility = .fold ∧
        document.parent? other = some bullet := by
  have bulletClear := clear_above_of_clear placed member otherMember isAbove clear
  cases visibility : bullet.visibility with
  | hide => exact absurd ((marked.bullet_visibility member).symm.trans visibility) shown
  | normal =>
    refine Or.inl ⟨fun above inside => ?_, otherShown⟩
    by_cases same : above = bullet
    · rw [same, ← marked.bullet_visibility member, visibility]
    · exact clear above inside same
  | foldHidden =>
    refine absurd visibility (settled.not_foldHidden_of_clear placed member ?_)
    intro above inside
    rw [marked.visibility_eq above (mem_lines_of_mem_ancestors inside), bulletClear above inside]
  | fold =>
    refine Or.inr ⟨⟨bulletClear, shown⟩, rfl, settled.parent?_eq placed member otherMember isAbove
      (by rw [visibility]; decide) ?_⟩
    intro above inside apart
    rw [marked.visibility_eq above (mem_lines_of_mem_ancestors inside), clear above inside apart]

/-- Unfolding a bullet that was shown folded brings back those right below it that are not
hidden. -/
theorem shownUnder_unfold_iff (settled : document.IsSettled)
    (marked : document.MarkedBy marks document) :
    document.ShownUnder (document.setMarks .normal true bullet marks) other ↔
      document.ShownUnder marks other ∨
        document.ShownUnder marks bullet ∧ bullet.visibility = .fold ∧
          document.parent? other = some bullet ∧ other.visibility ≠ .hide := by
  rw [setMarks, marked.bullet_visibility otherMember]
  by_cases hidden : marks bullet.index = .hide
  · rw [if_pos ⟨rfl, hidden⟩]
    exact (or_iff_left fun opened => opened.1.2 hidden).symm
  rw [if_neg fun left => hidden left.2, if_neg fun folded => absurd folded.1 (by decide)]
  have chain : document.parent? other = some bullet →
      document.ancestors other = bullet :: document.ancestors bullet := fun isParent => by
    rw [ancestors_eq_of_parent? placed otherMember, isParent]
  by_cases isAbove : bullet ∈ document.ancestors other
  · rw [shownUnder_update_of_below placed member otherMember isAbove]
    constructor
    · rintro ⟨-, clear, notHidden⟩
      refine (settled.shownUnder_or_folded placed member otherMember marked isAbove clear hidden
        notHidden).imp_right ?_
      rintro ⟨shown, folded, isParent⟩
      exact ⟨shown, folded, isParent, notHidden⟩
    · rintro (shown | ⟨shown, -, isParent, notHidden⟩)
      · exact ⟨rfl, fun above inside _ => shown.1 above inside, shown.2⟩
      · rw [chain isParent]
        exact ⟨rfl, fun above inside apart =>
          shown.1 above ((List.mem_cons.mp inside).resolve_left apart), notHidden⟩
  · rw [shownUnder_update_of_notBelow placed member otherMember hidden (by decide) isAbove]
    refine (or_iff_left fun opened => isAbove ?_).symm
    rw [chain opened.2.2.1]
    exact List.mem_cons_self

end Mark

/-- In every session with settled markers, folding a bullet and pushing visibility down takes out of
the diagram just what is below the bullet, if the bullet was in it. Unfolding one that was in the
diagram folded brings in the bullets right below it that are not hidden, and nothing else. A bullet
that was not in the diagram makes no difference. -/
theorem mem_nodeIds_fold_unfold_iff (unit : Int) (supply : IdSupply) (text : String)
    (edits : List Edit) :
    let document := (ofText unit supply text).afterAll edits
    firstBadIndent? 0 document.bullets = none → (document.bullets.map Line.id).Nodup →
      document.IsSettled →
        ∃ before, Graph.compile true document.lines = .ok before ∧
          ∀ bullet ∈ document.bullets,
            ∃ folded, Graph.compile true
                (LineEdit.fold.apply bullet document).propagateVisibility.lines = .ok folded ∧
              ∃ unfolded, Graph.compile true
                  (LineEdit.unfold.apply bullet document).propagateVisibility.lines =
                    .ok unfolded ∧
                (∀ other ∈ document.bullets, other.id ∈ folded.nodeIds ↔
                  other.id ∈ before.nodeIds ∧
                    ¬ (bullet.id ∈ before.nodeIds ∧ other ∈ document.descendants bullet)) ∧
                (∀ other ∈ document.bullets, other.id ∈ unfolded.nodeIds ↔
                  other.id ∈ before.nodeIds ∨
                    bullet.id ∈ before.nodeIds ∧ bullet.visibility = .fold ∧
                      document.parent? other = some bullet ∧ other.visibility ≠ .hide) ∧
                (bullet.id ∉ before.nodeIds → ∀ other ∈ document.bullets,
                  (other.id ∈ folded.nodeIds ↔ other.id ∈ before.nodeIds) ∧
                    (other.id ∈ unfolded.nodeIds ↔ other.id ∈ before.nodeIds)) := by
  intro document legal distinct settled
  have placed : document.IsPlaced := isPlaced_afterAll unit supply text edits
  obtain ⟨marks, marked⟩ := MarkedBy.of_placed placed
  obtain ⟨before, compiled, shownBefore⟩ := settled.exists_compile placed legal distinct marked
  refine ⟨before, compiled, fun bullet member => ?_⟩
  obtain ⟨folded, foldedCompiled, shownFolded⟩ :=
    (marked.setAt placed member .fold true).exists_compile placed legal distinct
  obtain ⟨unfolded, unfoldedCompiled, shownUnfolded⟩ :=
    (marked.setAt placed member .normal true).exists_compile placed legal distinct
  have foldedIff : ∀ other ∈ document.bullets, other.id ∈ folded.nodeIds ↔
      other.id ∈ before.nodeIds ∧
        ¬ (bullet.id ∈ before.nodeIds ∧ other ∈ document.descendants bullet) := by
    intro other otherMember
    rw [shownBefore other otherMember, shownBefore bullet member]
    exact (shownFolded other otherMember).trans (shownUnder_fold_iff placed member otherMember)
  have unfoldedIff : ∀ other ∈ document.bullets, other.id ∈ unfolded.nodeIds ↔
      other.id ∈ before.nodeIds ∨ bullet.id ∈ before.nodeIds ∧ bullet.visibility = .fold ∧
        document.parent? other = some bullet ∧ other.visibility ≠ .hide := by
    intro other otherMember
    rw [shownBefore other otherMember, shownBefore bullet member]
    exact (shownUnfolded other otherMember).trans
      (shownUnder_unfold_iff placed member otherMember settled marked)
  refine ⟨folded, foldedCompiled, unfolded, unfoldedCompiled, foldedIff, unfoldedIff,
    fun gone other otherMember => ⟨?_, ?_⟩⟩
  · rw [foldedIff other otherMember]
    exact and_iff_left fun below => gone below.1
  · rw [unfoldedIff other otherMember]
    exact or_iff_left fun opened => gone opened.1

/-- A fold over a folded bullet and a hidden one: unfolding it brings back the first of the two,
still folded. Folding the bullet above all of them takes them away. -/
theorem mem_nodeIds_fold_unfold_nested :
    let document := ofText 2 (IdSupply.ofListedHex []) "- A // a
  - B // b [+]
    - C // c [++]
      - D // d [++]
    - E // e [x]
"
    firstBadIndent? 0 document.bullets = none ∧ (document.bullets.map Line.id).Nodup ∧
      document.IsSettled ∧
      (∃ bullet ∈ document.bullets, bullet.id = "b" ∧
        ∃ unfolded, Graph.compile true
            (LineEdit.unfold.apply bullet document).propagateVisibility.lines = .ok unfolded ∧
          ∀ other ∈ document.bullets, other.id ∈ unfolded.nodeIds ↔ other.id ∈ ["a", "b", "c"]) ∧
      ∃ bullet ∈ document.bullets, bullet.id = "a" ∧
        ∃ folded, Graph.compile true
            (LineEdit.fold.apply bullet document).propagateVisibility.lines = .ok folded ∧
          ∀ other ∈ document.bullets, other.id ∈ folded.nodeIds ↔ other.id ∈ ["a"] := by
  intro document
  obtain ⟨legal, distinct, settled⟩ : firstBadIndent? 0 document.bullets = none ∧
      (document.bullets.map Line.id).Nodup ∧ document.IsSettled := by
    decide +kernel
  obtain ⟨before, compiled, each⟩ :=
    mem_nodeIds_fold_unfold_iff 2 (IdSupply.ofListedHex []) _ [] legal distinct settled
  obtain rfl : _ = before := Except.ok.inj ((Graph.compile_eq_ok legal true).symm.trans compiled)
  have opened : ∃ bullet ∈ document.bullets, bullet.id = "b" ∧ ∀ other ∈ document.bullets,
      (other.id ∈ (((Graph.ofBullets document.bullets).drawn true).normalize).nodeIds ∨
        bullet.id ∈ (((Graph.ofBullets document.bullets).drawn true).normalize).nodeIds ∧
          bullet.visibility = .fold ∧ document.parent? other = some bullet ∧
          other.visibility ≠ .hide) ↔ other.id ∈ ["a", "b", "c"] := by
    decide +kernel
  have closed : ∃ bullet ∈ document.bullets, bullet.id = "a" ∧ ∀ other ∈ document.bullets,
      (other.id ∈ (((Graph.ofBullets document.bullets).drawn true).normalize).nodeIds ∧
        ¬ (bullet.id ∈ (((Graph.ofBullets document.bullets).drawn true).normalize).nodeIds ∧
          other ∈ document.descendants bullet)) ↔ other.id ∈ ["a"] := by
    decide +kernel
  obtain ⟨second, secondMember, isSecond, opened⟩ := opened
  obtain ⟨first, firstMember, isFirst, closed⟩ := closed
  obtain ⟨-, -, unfolded, unfoldedCompiled, -, unfoldedIff, -⟩ := each second secondMember
  obtain ⟨folded, foldedCompiled, -, -, foldedIff, -, -⟩ := each first firstMember
  exact ⟨legal, distinct, settled,
    ⟨second, secondMember, isSecond, unfolded, unfoldedCompiled, fun other member =>
      (unfoldedIff other member).trans (opened other member)⟩,
    first, firstMember, isFirst, folded, foldedCompiled, fun other member =>
      (foldedIff other member).trans (closed other member)⟩

/-! ### Revealing -/

/-- In every session with settled markers, revealing a bullet and pushing visibility down brings the
bullet into the diagram and takes out what is below it. Everything else that was in the diagram
stays there. -/
theorem mem_nodeIds_reveal (unit : Int) (supply : IdSupply) (text : String) (edits : List Edit)
    (highlighted : Bool) :
    let document := (ofText unit supply text).afterAll edits
    firstBadIndent? 0 document.bullets = none → (document.bullets.map Line.id).Nodup →
      document.IsSettled →
        ∃ before, Graph.compile true document.lines = .ok before ∧
          ∀ bullet ∈ document.bullets,
            ∃ after, Graph.compile true ((LineEdit.reveal highlighted).apply bullet
                document).propagateVisibility.lines = .ok after ∧
              bullet.id ∈ after.nodeIds ∧
              (∀ below ∈ document.descendants bullet, below.id ∉ after.nodeIds) ∧
              ∀ other ∈ document.bullets, other ∉ document.descendants bullet →
                other.id ∈ before.nodeIds → other.id ∈ after.nodeIds := by
  intro document legal distinct settled
  have placed : document.IsPlaced := isPlaced_afterAll unit supply text edits
  obtain ⟨marks, marked⟩ := MarkedBy.of_placed placed
  obtain ⟨before, compiled, shownBefore⟩ := settled.exists_compile placed legal distinct marked
  refine ⟨before, compiled, fun bullet member => ?_⟩
  have revealed : ((LineEdit.reveal highlighted).apply bullet document).MarkedBy
      (document.revealedMarks bullet marks) document := by
    cases highlighted with
    | false => exact marked.reveal placed member
    | true => exact (marked.reveal placed member).highlight false bullet.index
  obtain ⟨after, afterCompiled, shownAfter⟩ := revealed.exists_compile placed legal distinct
  refine ⟨after, afterCompiled, (shownAfter bullet member).mpr ⟨fun above inside => ?_, ?_⟩,
    fun below isBelow => ?_, fun other otherMember notBelow shown => ?_⟩
  · obtain ⟨aboveMember, below⟩ := of_mem_ancestors placed member inside
    have different : above ≠ bullet := fun same =>
      notMem_ancestors_self placed member (same ▸ inside)
    exact revealedMarks_of_branch placed member aboveMember marks different
      (sharesBranch_iff.mpr (Or.inr (Or.inr below)))
  · exact revealedMarks_self_ne_hide bullet marks
  · have belowMember := (of_mem_descendants placed member isBelow).1
    have isAbove := (mem_descendants_iff_of_placed placed member belowMember).mp isBelow
    rw [shownAfter below belowMember]
    intro shown
    have clear := shown.1 bullet isAbove
    rw [revealedMarks_self placed member marks (List.ne_nil_of_mem isBelow)] at clear
    exact absurd clear (by decide)
  · obtain ⟨clear, notHidden⟩ := (shownBefore other otherMember).mp shown
    refine (shownAfter other otherMember).mpr ⟨fun above inside => ?_,
      revealedMarks_ne_hide bullet notHidden⟩
    have aboveMember := (of_mem_ancestors placed otherMember inside).1
    have different : above ≠ bullet := fun same => notBelow
      ((mem_descendants_iff_of_placed placed member otherMember).mpr (same ▸ inside))
    by_cases shared : document.sharesBranch above bullet = true
    · exact revealedMarks_of_branch placed member aboveMember marks different shared
    · rw [revealedMarks_of_apart placed member aboveMember marks shared]
      exact clear above inside

/-- Two folds are above the revealed bullet and one bullet is below it; a bullet on another branch
stays. -/
theorem mem_nodeIds_reveal_nested :
    let document := ofText 2 (IdSupply.ofListedHex []) "- A // a [+]
  - B // b [++]
    - C // c [++]
      - D // d [++]
  - E // e [++]
    - F // f [++]
- G // g
"
    firstBadIndent? 0 document.bullets = none ∧ (document.bullets.map Line.id).Nodup ∧
      document.IsSettled ∧
      ∃ bullet ∈ document.bullets, bullet.id = "c" ∧
        ∃ after, Graph.compile true ((LineEdit.reveal true).apply bullet
            document).propagateVisibility.lines = .ok after ∧
          "c" ∈ after.nodeIds ∧ "d" ∉ after.nodeIds ∧ "g" ∈ after.nodeIds := by
  intro document
  obtain ⟨legal, distinct, settled⟩ : firstBadIndent? 0 document.bullets = none ∧
      (document.bullets.map Line.id).Nodup ∧ document.IsSettled := by
    decide +kernel
  obtain ⟨before, compiled, each⟩ :=
    mem_nodeIds_reveal 2 (IdSupply.ofListedHex []) _ [] true legal distinct settled
  obtain rfl : _ = before := Except.ok.inj ((Graph.compile_eq_ok legal true).symm.trans compiled)
  have family : ∃ bullet ∈ document.bullets, bullet.id = "c" ∧
      (∃ below ∈ document.descendants bullet, below.id = "d") ∧
      ∃ other ∈ document.bullets, other.id = "g" ∧ other ∉ document.descendants bullet ∧
        other.id ∈ (((Graph.ofBullets document.bullets).drawn true).normalize).nodeIds := by
    decide +kernel
  obtain ⟨bullet, member, isC, ⟨below, isBelow, isD⟩, other, otherMember, isG, notBelow, shown⟩ :=
    family
  obtain ⟨after, afterCompiled, revealed, gone, kept⟩ := each bullet member
  exact ⟨legal, distinct, settled, bullet, member, isC, after, afterCompiled, isC ▸ revealed,
    isD ▸ gone below isBelow, isG ▸ kept other otherMember notBelow shown⟩

end Document

end OutlineDiagram
