/-
This file proves what pushing visibility down makes of each bullet, and that the
marks it leaves agree with the pruned graph. The pass keeps the depths of one open
hidden and one open folded bullet; together they tell how the outermost marked
bullet above the next one is marked. So each bullet becomes what its way from the
top says, as in the graph, where the same way decides what survives.
-/

import OutlineDiagram.Proofs.Document.Frame
import OutlineDiagram.Proofs.Graph.Survivors

namespace OutlineDiagram

/-! ### What becomes of a bullet -/

/-- The outermost bullet of a chain that is not normal. -/
def outermostMarked? : List Line → Option Line
  | [] => none
  | line :: above =>
    (outermostMarked? above).or (if line.visibility = .normal then none else some line)

/-- What becomes of a bullet, given the outermost marked bullet above it. -/
def Line.pushedDown (outermost? : Option Line) (isParent : Bool) (line : Line) : Line :=
  match outermost? with
  | some outermost =>
    if outermost.visibility = .hide then line.withVisibility .hide isParent
    else if line.visibility = .foldHidden ∨ line.visibility = .hide then line
    else line.withVisibility .foldHidden isParent
  | none => if line.visibility = .foldHidden then line.withVisibility .fold isParent else line

/-- Bullets with visibility pushed down. The list before them holds the bullets that were passed
already, as they were, the last one first. -/
def pushedBullets : List Line → List Line → List Line
  | _, [] => []
  | before, line :: rest =>
    line.pushedDown (outermostMarked? (shallowerChain line.depth before))
      (startsDeeper line.depth rest) :: pushedBullets (line :: before) rest

namespace Line

variable (outermost? : Option Line) (isParent : Bool) (line : Line)

/-- A bullet that is pushed down keeps all but its visibility and its highlight. -/
theorem pushedDown_eq :
    ∃ visibility isHighlighted, line.pushedDown outermost? isParent =
      { line with visibility := visibility, isHighlighted := isHighlighted } := by
  cases outermost? with
  | none =>
    rw [pushedDown]
    split <;> exact ⟨_, _, rfl⟩
  | some outermost =>
    rw [pushedDown]
    split
    · exact ⟨_, _, rfl⟩
    · split <;> exact ⟨_, _, rfl⟩

@[simp] theorem id_pushedDown : (line.pushedDown outermost? isParent).id = line.id := by
  obtain ⟨_, _, equal⟩ := line.pushedDown_eq outermost? isParent
  rw [equal]
  rfl

@[simp] theorem depth_pushedDown : (line.pushedDown outermost? isParent).depth = line.depth := by
  obtain ⟨_, _, equal⟩ := line.pushedDown_eq outermost? isParent
  rw [equal]

@[simp] theorem index_pushedDown : (line.pushedDown outermost? isParent).index = line.index := by
  obtain ⟨_, _, equal⟩ := line.pushedDown_eq outermost? isParent
  rw [equal]

@[simp] theorem isBullet_pushedDown :
    (line.pushedDown outermost? isParent).isBullet = line.isBullet := by
  obtain ⟨_, _, equal⟩ := line.pushedDown_eq outermost? isParent
  rw [equal]
  rfl

theorem withVisibility_self {visibility : Visibility} (marked : line.visibility = visibility)
    (shown : line.isHighlighted = false) (notFold : visibility ≠ .fold) :
    line.withVisibility visibility isParent = line := by
  rw [withVisibility, if_neg (fun folded => notFold folded.1), shown, Bool.false_and, ← marked,
    ← shown]

end Line

/-! ### The pass -/

namespace OpenMarks

/-- The open marks tell how the outermost marked bullet is marked. -/
def Tell (marks : OpenMarks) : Option Line → Prop
  | none => marks.hideDepth? = none ∧ marks.foldDepth? = none
  | some outermost =>
    if outermost.visibility = .hide then marks.hideDepth?.isSome = true
    else marks.hideDepth? = none ∧ marks.foldDepth?.isSome = true

/-- A visit makes of a bullet what the outermost marked bullet above it says. -/
theorem getD_visit {marks : OpenMarks} {outermost? : Option Line} (tell : marks.Tell outermost?)
    (isParent : Bool) (line : Line) :
    (marks.visit isParent line).1.getD line = line.pushedDown outermost? isParent := by
  cases outermost? with
  | none =>
    obtain ⟨noHide, noFold⟩ := tell
    rw [visit, noHide, noFold, Line.pushedDown]
    cases marked : line.visibility <;> rfl
  | some outermost =>
    rw [Tell] at tell
    rw [visit, Line.pushedDown]
    by_cases hidden : outermost.visibility = .hide
    · rw [if_pos hidden] at tell
      rw [if_pos tell, if_pos hidden]
      by_cases changes : line.visibility ≠ .hide ∨ line.isHighlighted
      · rw [if_pos changes, Option.getD_some]
      · obtain ⟨isHidden, shown⟩ := not_or.mp changes
        rw [if_neg changes, Option.getD_none]
        exact (line.withVisibility_self isParent (not_not.mp isHidden) (by simpa using shown)
          (by decide)).symm
    · rw [if_neg hidden] at tell
      rw [tell.1, if_neg (by decide), if_pos tell.2, if_neg hidden]
      split <;> rfl

/-- A visit opens what the visited bullet says about the bullets below it. -/
theorem tell_visit {marks : OpenMarks} {outermost? : Option Line} (tell : marks.Tell outermost?)
    (line : Line) :
    (marks.visit true line).2.Tell
      (outermost?.or (if line.visibility = .normal then none else some line)) := by
  cases outermost? with
  | none =>
    obtain ⟨noHide, noFold⟩ := tell
    rw [visit, noHide, noFold, Option.none_or]
    cases marked : line.visibility with
    | normal => exact ⟨noHide, noFold⟩
    | fold => simp [Tell, marked]
    | foldHidden => simp [Tell, marked]
    | hide => simp [Tell, marked]
  | some outermost =>
    have same : (marks.visit true line).2 = marks := by
      rw [Tell] at tell
      rw [visit]
      by_cases hidden : outermost.visibility = .hide
      · rw [if_pos hidden] at tell
        rw [if_pos tell]
      · rw [if_neg hidden] at tell
        rw [tell.1, if_neg (by decide), if_pos tell.2]
    rw [same, Option.some_or]
    exact tell

/-- Of two depths the smaller one decides which subtrees are left. -/
theorem reach_reach (marks : OpenMarks) (depth below : Int) :
    (marks.reach below).reach depth = marks.reach (min depth below) := by
  have both : ∀ mark : Option Int, (mark.filter fun start => start < below).filter
      (fun start => start < depth) = mark.filter fun start => start < min depth below := by
    intro mark
    rw [Option.filter_filter]
    refine congrFun (congrArg Option.filter (funext fun start => ?_)) mark
    rw [Bool.eq_iff_iff, Bool.and_eq_true, decide_eq_true_eq, decide_eq_true_eq,
      decide_eq_true_eq, Int.lt_min, and_comm]
  rw [reach, reach, reach, both, both]

/-- A visit opens at most one mark, at the depth of the bullet. -/
theorem visit_snd (marks : OpenMarks) (isParent : Bool) (line : Line) :
    (marks.visit isParent line).2 = marks ∨
      marks.hideDepth? = none ∧
        (marks.visit isParent line).2 = { marks with hideDepth? := some line.depth } ∨
      marks.foldDepth? = none ∧
        (marks.visit isParent line).2 = { marks with foldDepth? := some line.depth } := by
  rw [visit]
  by_cases isHidden : marks.hideDepth?.isSome = true
  · rw [if_pos isHidden]
    exact Or.inl rfl
  · rw [if_neg isHidden]
    by_cases isFolded : marks.foldDepth?.isSome = true
    · rw [if_pos isFolded]
      exact Or.inl rfl
    · rw [if_neg isFolded]
      have noHide := Option.not_isSome_iff_eq_none.mp isHidden
      have noFold := Option.not_isSome_iff_eq_none.mp isFolded
      cases line.visibility with
      | normal => exact Or.inl rfl
      | hide => exact Or.inr (Or.inl ⟨noHide, rfl⟩)
      | fold => exact Or.inr (Or.inr ⟨noFold, rfl⟩)
      | foldHidden =>
        cases isParent with
        | true => exact Or.inr (Or.inr ⟨noFold, rfl⟩)
        | false => exact Or.inl rfl

theorem reach_visit_of_le (marks : OpenMarks) (isParent : Bool) {line : Line} {depth : Int}
    (higher : depth ≤ line.depth) :
    ((marks.reach line.depth).visit isParent line).2.reach depth = marks.reach depth := by
  have closed : (some line.depth).filter (fun start => start < depth) = none := by
    simp [Option.filter, Int.not_lt.mpr higher]
  have stays := reach_reach marks depth line.depth
  rw [Int.min_eq_left higher] at stays
  rw [← stays]
  generalize marks.reach line.depth = reached
  rcases visit_snd reached isParent line with same | ⟨none, same⟩ | ⟨none, same⟩
  · rw [same]
  · rw [same, reach, reach, closed, none, Option.filter_none]
  · rw [same, reach, reach, closed, none, Option.filter_none]

theorem reach_visit_of_lt (marks : OpenMarks) (isParent : Bool) {line : Line} {depth : Int}
    (deeper : line.depth < depth) :
    ((marks.reach line.depth).visit isParent line).2.reach depth =
      ((marks.reach line.depth).visit isParent line).2 := by
  have opened : (some line.depth).filter (fun start => start < depth) = some line.depth := by
    simp [Option.filter, deeper]
  have kept := reach_reach marks depth line.depth
  rw [Int.min_eq_right (Int.le_of_lt deeper)] at kept
  generalize marks.reach line.depth = reached at kept ⊢
  have hideKept : reached.hideDepth?.filter (fun start => start < depth) = reached.hideDepth? :=
    congrArg OpenMarks.hideDepth? kept
  have foldKept : reached.foldDepth?.filter (fun start => start < depth) = reached.foldDepth? :=
    congrArg OpenMarks.foldDepth? kept
  rcases visit_snd reached isParent line with same | ⟨_, same⟩ | ⟨_, same⟩
  · rw [same, kept]
  · rw [same, reach, opened, foldKept]
  · rw [same, reach, opened, hideKept]

end OpenMarks

/-- One pass over a list of bullets. -/
def propagateBullets : OpenMarks → List Line → List Line
  | _, [] => []
  | marks, line :: rest =>
    let visited := (marks.reach line.depth).visit (startsDeeper line.depth rest) line
    visited.1.getD line :: propagateBullets visited.2 rest

theorem startsDeeper_bulletsOf (depth : Int) (following : List Line) :
    startsDeeper depth (bulletsOf following) = startsDeeper depth following := by
  rw [startsDeeper, startsDeeper, bulletsOf_bulletsOf]

theorem startsDeeper_of_head {depth : Int} {following : List Line} {next : Line}
    (bullet : next.isBullet = true) (head : following.head? = some next)
    (deeper : depth < next.depth) : startsDeeper depth following = true := by
  obtain ⟨rest, rfl⟩ := List.head?_eq_some_iff.mp head
  rw [startsDeeper, bulletsOf, List.filter_cons_of_pos bullet]
  exact decide_eq_true deeper

/-- A visit reaches the metadata of a bullet only. -/
theorem withoutMetadata_getD_visit (marks : OpenMarks) (isParent : Bool) (line : Line) :
    ((marks.visit isParent line).1.getD line).withoutMetadata = line.withoutMetadata := by
  cases visited : (marks.visit isParent line).1 with
  | none => rfl
  | some changed =>
    obtain ⟨visibility, rfl⟩ := Document.exists_of_visit visited
    rfl

theorem isBullet_getD_visit (marks : OpenMarks) (isParent : Bool) (line : Line) :
    ((marks.visit isParent line).1.getD line).isBullet = line.isBullet := by
  have same := congrArg Line.isBullet (withoutMetadata_getD_visit marks isParent line)
  exact same

/-- The pass over the entries of a document is one over its bullets. -/
theorem bulletsOf_propagateEntries (marks : OpenMarks) (entries : List Entry) :
    bulletsOf ((propagateEntries marks entries).filterMap Entry.line?) =
      propagateBullets marks (bulletsOf (entries.filterMap Entry.line?)) := by
  induction entries generalizing marks with
  | nil => rfl
  | cons entry rest inductionHypothesis =>
    cases entry with
    | blank text => exact inductionHypothesis marks
    | script text => exact inductionHypothesis marks
    | parsed line isEdited =>
      have lines : (Entry.parsed line isEdited :: rest).filterMap Entry.line? =
          line :: rest.filterMap Entry.line? := List.filterMap_cons_some rfl
      rw [propagateEntries, lines]
      by_cases bullet : line.isBullet = true
      · have isSame := isBullet_getD_visit (marks.reach line.depth)
          (startsDeeper line.depth (rest.filterMap Entry.line?)) line
        rw [if_pos bullet]
        dsimp only
        generalize known : (marks.reach line.depth).visit
          (startsDeeper line.depth (rest.filterMap Entry.line?)) line = visited at isSame ⊢
        have changed : Entry.line? (match visited.1 with
            | some changed => Entry.parsed changed true
            | none => Entry.parsed line isEdited) = some (visited.1.getD line) := by
          cases visited.1 <;> rfl
        refine (congrArg bulletsOf (List.filterMap_cons_some changed)).trans ?_
        rw [bulletsOf, List.filter_cons_of_pos (isSame.trans bullet), bulletsOf,
          List.filter_cons_of_pos bullet, propagateBullets]
        have folded := startsDeeper_bulletsOf line.depth (rest.filterMap Entry.line?)
        rw [bulletsOf] at folded
        rw [folded, known]
        exact congrArg _ (inductionHypothesis visited.2)
      · have none : bulletsOf (line :: rest.filterMap Entry.line?) =
            bulletsOf (rest.filterMap Entry.line?) := List.filter_cons_of_neg bullet
        rw [if_neg bullet, none, ← inductionHypothesis marks]
        exact List.filter_cons_of_neg bullet

/-- The marks tell, for each depth that the next bullet may have, how the outermost marked bullet
above it is marked. -/
def OpenMarks.Agree (marks : OpenMarks) (before rest : List Line) : Prop :=
  ∀ next, rest.head? = some next → ∀ depth ≤ next.depth,
    (marks.reach depth).Tell (outermostMarked? (shallowerChain depth before))

/-- One pass makes of each bullet what its chain says. -/
theorem propagateBullets_eq {marks : OpenMarks} {before rest : List Line}
    (valid : ∀ line ∈ rest, line.isBullet = true) (agree : marks.Agree before rest) :
    propagateBullets marks rest = pushedBullets before rest := by
  induction rest generalizing marks before with
  | nil => rfl
  | cons line rest inductionHypothesis =>
    have restValid : ∀ other ∈ rest, other.isBullet = true :=
      fun other member => valid other (List.mem_cons_of_mem _ member)
    have tell := agree line rfl line.depth (Int.le_refl _)
    rw [propagateBullets, pushedBullets, OpenMarks.getD_visit tell]
    refine congrArg _ (inductionHypothesis restValid ?_)
    intro next head depth shallow
    by_cases higher : depth ≤ line.depth
    · rw [OpenMarks.reach_visit_of_le marks _ higher, shallowerChain_cons_of_le higher]
      exact agree line rfl depth higher
    · -- Only a bullet with deeper ones below it is on the way to a deeper one.
      have deeper : line.depth < depth := Int.not_le.mp higher
      have isParent : startsDeeper line.depth rest = true :=
        startsDeeper_of_head (restValid next (List.mem_of_head? head)) head
          (Int.lt_of_lt_of_le deeper shallow)
      rw [OpenMarks.reach_visit_of_lt marks _ deeper,
        shallowerChain_cons_of_lt (valid line List.mem_cons_self) deeper, isParent]
      exact OpenMarks.tell_visit tell line

/-- Pushing visibility down makes of each bullet what its chain says. -/
theorem Document.bullets_propagateVisibility (document : Document) :
    document.propagateVisibility.bullets = pushedBullets [] document.bullets := by
  have pass := bulletsOf_propagateEntries {} document.entries
  refine pass.trans (propagateBullets_eq (fun line member => isBullet_of_mem_bulletsOf member) ?_)
  intro next _ depth _
  exact ⟨rfl, rfl⟩

/-! ### Chains after the pass -/

/-- A chain with visibility pushed down. All of its bullets have deeper ones below them. -/
def pushedChain : List Line → List Line
  | [] => []
  | line :: above => line.pushedDown (outermostMarked? above) true :: pushedChain above

/-- What is above a pushed bullet is what was above it, pushed down. -/
theorem exists_place_of_mem_pushedBullets {before after rest : List Line}
    (valid : ∀ line ∈ rest, line.isBullet = true)
    (fits : ∀ next, rest.head? = some next → ∀ depth ≤ next.depth,
      shallowerChain depth after = pushedChain (shallowerChain depth before))
    {place : List Line × Line} (member : place ∈ withChains after (pushedBullets before rest)) :
    ∃ old ∈ withChains before rest, ∃ isParent,
      place = (pushedChain old.1, old.2.pushedDown (outermostMarked? old.1) isParent) := by
  induction rest generalizing before after with
  | nil => exact absurd member List.not_mem_nil
  | cons line rest inductionHypothesis =>
    have restValid : ∀ other ∈ rest, other.isBullet = true :=
      fun other inside => valid other (List.mem_cons_of_mem _ inside)
    rw [pushedBullets, withChains, Line.depth_pushedDown, fits line rfl _ (Int.le_refl _)] at member
    rw [withChains]
    rcases List.mem_cons.mp member with rfl | further
    · exact ⟨_, List.mem_cons_self, _, rfl⟩
    · refine (inductionHypothesis restValid ?_ further).imp fun old found =>
        ⟨List.mem_cons_of_mem _ found.1, found.2⟩
      intro next head depth shallow
      by_cases higher : depth ≤ line.depth
      · rw [shallowerChain_cons_of_le (by rwa [Line.depth_pushedDown]),
          shallowerChain_cons_of_le higher]
        exact fits line rfl depth higher
      · have deeper : line.depth < depth := Int.not_le.mp higher
        have bullet := valid line List.mem_cons_self
        have isParent : startsDeeper line.depth rest = true :=
          startsDeeper_of_head (restValid next (List.mem_of_head? head)) head
            (Int.lt_of_lt_of_le deeper shallow)
        rw [isParent, shallowerChain_cons_of_lt bullet deeper, pushedChain,
          shallowerChain_cons_of_lt (by rwa [Line.isBullet_pushedDown])
            (by rwa [Line.depth_pushedDown]),
          Line.depth_pushedDown, fits line rfl _ (Int.le_refl _)]

/-- Where nothing above is marked, nothing becomes marked. -/
theorem visibility_pushedChain_of_none {chain : List Line} (clear : outermostMarked? chain = none) :
    ∀ other ∈ pushedChain chain, other.visibility = .normal := by
  induction chain with
  | nil => exact fun other member => absurd member List.not_mem_nil
  | cons line above inductionHypothesis =>
    rw [outermostMarked?, Option.or_eq_none_iff] at clear
    obtain ⟨aboveClear, lineClear⟩ := clear
    have normal : line.visibility = .normal := by
      by_contra marked
      rw [if_neg marked] at lineClear
      exact absurd lineClear (by simp)
    intro other member
    rw [pushedChain, aboveClear, Line.pushedDown, normal, if_neg (by decide)] at member
    rcases List.mem_cons.mp member with rfl | further
    · exact normal
    · exact inductionHypothesis aboveClear other further

/-- Where something above is marked, the outermost of it closes what is below. -/
theorem exists_closed_of_some {chain : List Line} {outermost : Line}
    (marked : outermostMarked? chain = some outermost) :
    ∃ other ∈ pushedChain chain, other.visibility = .hide ∨ other.visibility = .fold := by
  induction chain with
  | nil => exact absurd marked (by simp [outermostMarked?])
  | cons line above inductionHypothesis =>
    rw [pushedChain]
    cases further : outermostMarked? above with
    | some top =>
      obtain ⟨other, member, closed⟩ := inductionHypothesis (further.trans (by
        rw [outermostMarked?, further, Option.some_or] at marked
        exact marked))
      exact ⟨other, List.mem_cons_of_mem _ member, closed⟩
    | none =>
      refine ⟨_, List.mem_cons_self, ?_⟩
      rw [outermostMarked?, further, Option.none_or] at marked
      cases visibility : line.visibility with
      | normal =>
        rw [if_pos visibility] at marked
        exact absurd marked (by simp)
      | fold => simp [Line.pushedDown, visibility]
      | foldHidden => simp [Line.pushedDown, Line.withVisibility, visibility]
      | hide => simp [Line.pushedDown, visibility]

theorem visibility_pushedDown_none (isParent : Bool) (line : Line) :
    (line.pushedDown none isParent).visibility ≠ .foldHidden := by
  rw [Line.pushedDown]
  by_cases wasHidden : line.visibility = .foldHidden
  · rw [if_pos wasHidden, Line.withVisibility]
    cases isParent <;> simp
  · rw [if_neg wasHidden]
    exact wasHidden

theorem visibility_pushedDown_some (outermost : Line) (isParent : Bool) (line : Line) :
    (line.pushedDown (some outermost) isParent).visibility = .hide ∨
      (line.pushedDown (some outermost) isParent).visibility = .foldHidden := by
  rw [Line.pushedDown]
  split
  · exact Or.inl rfl
  · split
    · next gone => exact gone.symm
    · exact Or.inr rfl

/-- After the pass the marks of a bullet alone tell whether anything on its way closes it. -/
theorem shown_pushedDown_iff (chain : List Line) (isParent : Bool) (line : Line) :
    ((∀ other ∈ line.pushedDown (outermostMarked? chain) isParent :: pushedChain chain,
          other.visibility ≠ .hide) ∧
        ∀ other ∈ pushedChain chain, other.visibility ≠ .fold) ↔
      (line.pushedDown (outermostMarked? chain) isParent).visibility = .normal ∨
        (line.pushedDown (outermostMarked? chain) isParent).visibility = .fold := by
  cases marked : outermostMarked? chain with
  | none =>
    have clear := visibility_pushedChain_of_none marked
    have notFoldHidden := visibility_pushedDown_none isParent line
    generalize line.pushedDown none isParent = changed at notFoldHidden ⊢
    constructor
    · rintro ⟨notHidden, _⟩
      have shown := notHidden changed List.mem_cons_self
      cases visibility : changed.visibility with
      | normal => exact Or.inl rfl
      | fold => exact Or.inr rfl
      | foldHidden => exact absurd visibility notFoldHidden
      | hide => exact absurd visibility shown
    · intro shown
      refine ⟨fun other member => ?_, fun other member => ?_⟩
      · rcases List.mem_cons.mp member with rfl | above
        · rcases shown with normal | folded
          · rw [normal]; decide
          · rw [folded]; decide
        · rw [clear other above]
          decide
      · rw [clear other member]
        decide
  | some outermost =>
    obtain ⟨other, member, closed⟩ := exists_closed_of_some marked
    have gone := visibility_pushedDown_some outermost isParent line
    constructor
    · rintro ⟨notHidden, notFolded⟩
      rcases closed with hidden | folded
      · exact absurd hidden (notHidden other (List.mem_cons_of_mem _ member))
      · exact absurd folded (notFolded other member)
    · rintro (shown | shown)
      · rcases gone with hidden | foldHidden <;> simp_all
      · rcases gone with hidden | foldHidden <;> simp_all

/-! ### Documents -/

/-- What no visibility counts for is the same after visibility was pushed down. -/
theorem map_pushedBullets {α : Type} {tell : Line → α}
    (kept : ∀ outermost? isParent line, tell (line.pushedDown outermost? isParent) = tell line)
    (before rest : List Line) : (pushedBullets before rest).map tell = rest.map tell := by
  induction rest generalizing before with
  | nil => rfl
  | cons line rest inductionHypothesis =>
    rw [pushedBullets, List.map_cons, List.map_cons, kept, inductionHypothesis]

theorem map_id_pushedBullets (before rest : List Line) :
    (pushedBullets before rest).map Line.id = rest.map Line.id :=
  map_pushedBullets Line.id_pushedDown before rest

theorem nodup_ids_pushedBullets {bullets : List Line} (distinct : (bullets.map Line.id).Nodup) :
    ((pushedBullets [] bullets).map Line.id).Nodup := by
  rwa [map_id_pushedBullets]

theorem firstBadIndent?_pushedBullets (allowed : Int) (before rest : List Line) :
    firstBadIndent? allowed (pushedBullets before rest) = firstBadIndent? allowed rest :=
  firstBadIndent?_congr (map_pushedBullets (fun _ _ _ => by
    rw [Line.index_pushedDown, Line.depth_pushedDown]) before rest) allowed

theorem isBullet_of_mem_pushedBullets {before rest : List Line}
    (valid : ∀ line ∈ rest, line.isBullet = true) :
    ∀ line ∈ pushedBullets before rest, line.isBullet = true := by
  induction rest generalizing before with
  | nil => exact fun line member => absurd member List.not_mem_nil
  | cons first rest inductionHypothesis =>
    intro line member
    rcases List.mem_cons.mp member with rfl | further
    · rw [Line.isBullet_pushedDown]
      exact valid first List.mem_cons_self
    · exact inductionHypothesis (fun other inside => valid other (List.mem_cons_of_mem _ inside))
        line further

/-- The pruned graph of pushed bullets shows those that are marked as normal or as folded. -/
theorem mem_nodeIds_pushedBullets_iff {bullets : List Line}
    (valid : ∀ line ∈ bullets, line.isBullet = true) (distinct : (bullets.map Line.id).Nodup)
    {bullet : Line} (member : bullet ∈ pushedBullets [] bullets) :
    bullet.id ∈ ((Graph.ofBullets (pushedBullets [] bullets)).drawn true).nodeIds ↔
      bullet.visibility = .normal ∨ bullet.visibility = .fold := by
  rw [← map_snd_withChains [] (pushedBullets [] bullets)] at member
  obtain ⟨⟨chain, line⟩, place, rfl⟩ := List.mem_map.mp member
  have nodes := mem_nodeIds_drawn (isBullet_of_mem_pushedBullets valid)
    (nodup_ids_pushedBullets distinct) place
  obtain ⟨old, _, isParent, same⟩ :=
    exists_place_of_mem_pushedBullets valid (fun _ _ _ _ => rfl) place
  obtain ⟨rfl, rfl⟩ := Prod.mk.inj same
  exact nodes.trans (shown_pushedDown_iff old.1 isParent old.2)

namespace Document

/-- Pushing visibility down keeps an outline well indented, so it still has a diagram. -/
theorem compile_lines_propagateVisibility {document : Document}
    (legal : firstBadIndent? 0 document.bullets = none) :
    Graph.compile true document.propagateVisibility.lines =
      .ok ((Graph.ofBullets (pushedBullets [] document.bullets)).drawn true).normalize := by
  have pushed := document.bullets_propagateVisibility
  have afterLegal : firstBadIndent? 0 document.propagateVisibility.bullets = none := by
    rw [pushed, firstBadIndent?_pushedBullets]
    exact legal
  rw [← pushed]
  exact Graph.compile_eq_ok afterLegal true

/-- After visibility was pushed down, the bullets that the pruned graph shows are those that are
marked as normal or as folded. -/
theorem mem_nodeIds_propagateVisibility_iff (document : Document)
    (legal : firstBadIndent? 0 document.bullets = none)
    (distinct : (document.bullets.map Line.id).Nodup) :
    ∃ graph, Graph.compile true document.propagateVisibility.lines = .ok graph ∧
      ∀ bullet ∈ document.propagateVisibility.bullets,
        bullet.id ∈ graph.nodeIds ↔ bullet.visibility = .normal ∨ bullet.visibility = .fold := by
  rw [document.bullets_propagateVisibility]
  refine ⟨_, compile_lines_propagateVisibility legal, fun bullet member => ?_⟩
  rw [Graph.nodeIds_normalize]
  exact mem_nodeIds_pushedBullets_iff (fun line inside => isBullet_of_mem_bulletsOf inside)
    distinct member

/-- A fold opens where nothing above it is folded, and closes what is below it. -/
theorem mem_nodeIds_propagateVisibility_step :
    let document := ofText 2 (IdSupply.ofListedHex []) "- A // [++]
  - B // b
- C // [x]
"
    firstBadIndent? 0 document.bullets = none ∧ (document.bullets.map Line.id).Nodup ∧
      ∃ graph, Graph.compile true document.propagateVisibility.lines = .ok graph ∧
        "b" ∉ graph.nodeIds := by
  intro document
  have legal : firstBadIndent? 0 document.bullets = none := by decide +kernel
  have distinct : (document.bullets.map Line.id).Nodup := by decide +kernel
  obtain ⟨graph, compiled, shown⟩ := mem_nodeIds_propagateVisibility_iff document legal distinct
  refine ⟨legal, distinct, graph, compiled, ?_⟩
  obtain ⟨bullet, member, same, marked⟩ : ∃ bullet ∈ document.propagateVisibility.bullets,
      bullet.id = "b" ∧ bullet.visibility = .foldHidden := by decide +kernel
  rw [← same, shown bullet member, marked]
  decide

end Document

end OutlineDiagram
