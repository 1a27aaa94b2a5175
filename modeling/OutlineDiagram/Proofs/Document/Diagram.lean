/-
This file proves that pushing visibility down leaves the pruned diagram as it is.
Where every fold-hidden bullet has a folded or hidden one above it, the outermost
marked bullet of a chain is folded or hidden, and it keeps its marker. Whether a
bullet survives and what stands for it depend on that one alone, so both graphs keep
the same nodes and reroute the same links.
-/

import OutlineDiagram.Proofs.Document.Propagate
import OutlineDiagram.Proofs.Graph.Places
import OutlineDiagram.Proofs.Graph.Redrawn

namespace OutlineDiagram

/-! ### Grounded chains -/

/-- A bullet that is fold-hidden has a folded or a hidden one above it. -/
def IsGrounded (place : List Line × Line) : Prop :=
  place.2.visibility = .foldHidden →
    ∃ other ∈ place.1, other.visibility = .fold ∨ other.visibility = .hide

instance : DecidablePred IsGrounded := fun place =>
  inferInstanceAs (Decidable (place.2.visibility = .foldHidden →
    ∃ other ∈ place.1, other.visibility = .fold ∨ other.visibility = .hide))

/-- Every bullet of a chain is grounded in what is above it. -/
def GroundedChain : List Line → Prop
  | [] => True
  | line :: above => IsGrounded (above, line) ∧ GroundedChain above

variable {bullets chain : List Line}

theorem groundedChain_of_suffix
    (grounded : ∀ line above, line :: above <:+ chain → IsGrounded (above, line)) :
    GroundedChain chain := by
  induction chain with
  | nil => trivial
  | cons line above inductionHypothesis =>
    refine ⟨grounded line above (List.suffix_refl _), inductionHypothesis fun other upper part => ?_⟩
    exact grounded other upper (part.trans (List.suffix_cons line above))

/-- What is above a bullet stands at a place of its own. -/
theorem groundedChain_of_place (valid : ∀ line ∈ bullets, line.isBullet = true)
    (grounded : ∀ place ∈ withChains [] bullets, IsGrounded place) {place : List Line × Line}
    (member : place ∈ withChains [] bullets) : GroundedChain (place.2 :: place.1) := by
  refine ⟨grounded place member, groundedChain_of_suffix fun other upper part => ?_⟩
  have isPath := member
  rw [← Forest.paths_nest valid] at isPath
  rcases Forest.sublist_of_suffix_pathsFrom isPath part with none | sublist
  · exact absurd (List.suffix_nil.mp none) (by simp)
  · have above := sublist.subset List.mem_cons_self
    rw [← Forest.paths, Forest.paths_nest valid] at above
    exact grounded _ above

theorem visibility_of_outermost_none (clear : outermostMarked? chain = none) :
    ∀ line ∈ chain, line.visibility = .normal := by
  induction chain with
  | nil => exact fun line member => absurd member List.not_mem_nil
  | cons first above inductionHypothesis =>
    rw [outermostMarked?, Option.or_eq_none_iff] at clear
    refine List.forall_mem_cons.mpr ⟨?_, inductionHypothesis clear.1⟩
    by_contra marked
    rw [if_neg marked] at clear
    exact Option.some_ne_none _ clear.2

/-- The outermost marked bullet of a grounded chain is folded or hidden. -/
theorem cases_of_outermost_some (grounded : GroundedChain chain) {outermost : Line}
    (marked : outermostMarked? chain = some outermost) :
    outermost ∈ chain ∧ (outermost.visibility = .fold ∨ outermost.visibility = .hide) := by
  induction chain with
  | nil => exact absurd marked (Option.some_ne_none outermost).symm
  | cons line above inductionHypothesis =>
    rw [outermostMarked?] at marked
    cases further : outermostMarked? above with
    | some top =>
      rw [further, Option.some_or] at marked
      obtain ⟨member, closes⟩ := inductionHypothesis grounded.2 (further.trans marked)
      exact ⟨List.mem_cons_of_mem _ member, closes⟩
    | none =>
      have clear := visibility_of_outermost_none further
      rw [further, Option.none_or] at marked
      cases visibility : line.visibility with
      | normal =>
        rw [if_pos visibility] at marked
        exact absurd marked (Option.some_ne_none outermost).symm
      | foldHidden =>
        obtain ⟨other, member, closes⟩ := grounded.1 visibility
        rw [clear other member] at closes
        exact absurd closes (by decide)
      | fold =>
        rw [visibility, if_neg (by decide)] at marked
        obtain rfl := Option.some.inj marked
        exact ⟨List.mem_cons_self, Or.inl visibility⟩
      | hide =>
        rw [visibility, if_neg (by decide)] at marked
        obtain rfl := Option.some.inj marked
        exact ⟨List.mem_cons_self, Or.inr visibility⟩

/-! ### Pushed chains -/

theorem Line.withVisibility_true (line : Line) {visibility : Visibility}
    (notFold : visibility ≠ .fold) (isParent : Bool) :
    line.withVisibility visibility isParent = line.withVisibility visibility true := by
  unfold Line.withVisibility
  rw [if_neg (fun folded => notFold folded.1), if_neg (fun folded => notFold folded.1)]

/-- A grounded bullet below nothing that is marked stays as it is. -/
theorem pushedDown_of_outermost_none {line : Line} (grounded : IsGrounded (chain, line))
    (clear : outermostMarked? chain = none) (isParent : Bool) :
    line.pushedDown (outermostMarked? chain) isParent = line := by
  rw [clear, Line.pushedDown, if_neg]
  intro foldHidden
  obtain ⟨other, member, closes⟩ := grounded foldHidden
  rw [visibility_of_outermost_none clear other member] at closes
  exact absurd closes (by decide)

/-- What becomes of a grounded bullet does not depend on what is below it. -/
theorem pushedDown_true {line : Line} (grounded : IsGrounded (chain, line)) (isParent : Bool) :
    line.pushedDown (outermostMarked? chain) isParent =
      line.pushedDown (outermostMarked? chain) true := by
  cases marked : outermostMarked? chain with
  | none =>
    rw [← marked, pushedDown_of_outermost_none grounded marked,
      pushedDown_of_outermost_none grounded marked]
  | some outermost =>
    unfold Line.pushedDown
    dsimp only
    rw [line.withVisibility_true (by decide : Visibility.hide ≠ .fold) isParent,
      line.withVisibility_true (by decide : Visibility.foldHidden ≠ .fold) isParent]

theorem map_id_pushedChain (chain : List Line) :
    (pushedChain chain).map Line.id = chain.map Line.id := by
  induction chain with
  | nil => rfl
  | cons line above inductionHypothesis =>
    rw [pushedChain, List.map_cons, List.map_cons, inductionHypothesis, Line.id_pushedDown]

/-- The outermost folded bullet of a chain. -/
def outermostFold? (chain : List Line) : Option Line :=
  (chain.filter fun other => other.visibility == .fold).getLast?

theorem outermostFold?_cons (line : Line) (above : List Line) :
    outermostFold? (line :: above) =
      (outermostFold? above).or (if line.visibility = .fold then some line else none) := by
  unfold outermostFold?
  by_cases folded : line.visibility = .fold
  · rw [List.filter_cons_of_pos (by simpa using folded), if_pos folded, List.getLast?_cons]
    cases (above.filter fun other => other.visibility == .fold).getLast? <;> rfl
  · rw [List.filter_cons_of_neg (by simpa using folded), if_neg folded, Option.or_none]

theorem outermostFold?_eq_none_iff :
    outermostFold? chain = none ↔ ∀ other ∈ chain, other.visibility ≠ .fold := by
  rw [outermostFold?, List.getLast?_eq_none_iff, List.filter_eq_nil_iff]
  simp only [beq_iff_eq, ne_eq]

/-- Below a folded bullet no further one becomes the outermost. -/
theorem outermostFold?_cons_of_mem {other : Line} {above : List Line} (member : other ∈ above)
    (folded : other.visibility = .fold) (line : Line) :
    outermostFold? (line :: above) = outermostFold? above := by
  rw [outermostFold?_cons]
  cases outer : outermostFold? above with
  | none => exact absurd folded (outermostFold?_eq_none_iff.mp outer other member)
  | some outermost => rfl

/-- Pushing down hides and uncovers nothing else on the way of a grounded chain, and it keeps the
outermost folded bullet of a way on which nothing is hidden. -/
theorem marks_pushedChain (grounded : GroundedChain chain) :
    ((∃ other ∈ pushedChain chain, other.visibility = .hide) ↔
        ∃ other ∈ chain, other.visibility = .hide) ∧
      ((∀ other ∈ chain, other.visibility ≠ .hide) →
        outermostFold? (pushedChain chain) = outermostFold? chain) := by
  induction chain with
  | nil => exact ⟨Iff.rfl, fun _ => rfl⟩
  | cons line above inductionHypothesis =>
    obtain ⟨hides, folds⟩ := inductionHypothesis grounded.2
    rw [pushedChain, List.exists_mem_cons_iff, List.exists_mem_cons_iff, List.forall_mem_cons]
    cases marked : outermostMarked? above with
    | none =>
      have same := pushedDown_of_outermost_none grounded.1 marked true
      rw [← marked, same, outermostFold?_cons, outermostFold?_cons]
      exact ⟨or_congr_right hides, fun shown => by rw [folds shown.2]⟩
    | some outermost =>
      obtain ⟨member, folded | hidden⟩ := cases_of_outermost_some grounded.2 marked
      · -- Below a fold only what was hidden before is hidden, and nothing is folded.
        have notHide : outermost.visibility ≠ .hide := by
          rw [folded]
          decide
        rw [Line.pushedDown, if_neg notHide, outermostFold?_cons_of_mem member folded]
        by_cases gone : line.visibility = .foldHidden ∨ line.visibility = .hide
        · have notFold : line.visibility ≠ .fold := by
            rcases gone with same | same <;> simp [same]
          rw [if_pos gone, outermostFold?_cons, if_neg notFold, Option.or_none]
          exact ⟨or_congr_right hides, fun shown => folds shown.2⟩
        · have becomes : (line.withVisibility .foldHidden true).visibility = .foldHidden := rfl
          rw [if_neg gone, outermostFold?_cons, becomes, if_neg (by decide), Option.or_none]
          refine ⟨or_congr (iff_of_false (by decide) fun same => gone (Or.inr same)) hides,
            fun shown => folds shown.2⟩
      · have isHidden : ∃ other ∈ above, other.visibility = .hide := ⟨outermost, member, hidden⟩
        refine ⟨iff_of_true (Or.inr (hides.mpr isHidden)) (Or.inr isHidden), fun shown => ?_⟩
        exact absurd hidden (shown.2 outermost member)

/-- A grounded bullet that nothing on its way closes stays as it is. -/
theorem pushedDown_of_shown {line : Line} (grounded : GroundedChain (line :: chain))
    (noHide : ∀ other ∈ chain, other.visibility ≠ .hide)
    (noFold : ∀ other ∈ chain, other.visibility ≠ .fold) (isParent : Bool) :
    line.pushedDown (outermostMarked? chain) isParent = line := by
  cases marked : outermostMarked? chain with
  | none =>
    rw [← marked]
    exact pushedDown_of_outermost_none grounded.1 marked isParent
  | some outermost =>
    obtain ⟨member, folded | hidden⟩ := cases_of_outermost_some grounded.2 marked
    · exact absurd folded (noFold outermost member)
    · exact absurd hidden (noHide outermost member)

/-! ### Pushed bullets -/

section Pushed

variable (valid : ∀ line ∈ bullets, line.isBullet = true)
  (distinct : (bullets.map Line.id).Nodup)
  (grounded : ∀ place ∈ withChains [] bullets, IsGrounded place)

include valid distinct grounded

/-- Every place is there after the pass, with its chain pushed down. -/
theorem mem_withChains_pushedBullets {place : List Line × Line}
    (member : place ∈ withChains [] bullets) :
    (pushedChain place.1, place.2.pushedDown (outermostMarked? place.1) true) ∈
      withChains [] (pushedBullets [] bullets) := by
  have ids : ((withChains [] (pushedBullets [] bullets)).map fun place => place.2.id) =
      (withChains [] bullets).map fun place => place.2.id := by
    rw [map_id_withChains, map_id_withChains, map_id_pushedBullets]
  have listed : place.2.id ∈ (withChains [] bullets).map fun place => place.2.id :=
    List.mem_map_of_mem member
  rw [← ids] at listed
  obtain ⟨pushed, found, sameId⟩ := List.mem_map.mp listed
  obtain ⟨old, oldMember, isParent, rfl⟩ :=
    exists_place_of_mem_pushedBullets valid (fun _ _ _ _ => rfl) found
  rw [Line.id_pushedDown] at sameId
  obtain rfl : old = place := place_unique distinct member oldMember sameId
  rwa [pushedDown_true (grounded old member)] at found

theorem standIn?_pushedBullets (id : String) :
    standIn? (pushedBullets [] bullets) id = standIn? bullets id := by
  have afterDistinct := nodup_ids_pushedBullets distinct
  by_cases listed : id ∈ bullets.map Line.id
  · rw [← map_id_withChains []] at listed
    obtain ⟨⟨above, bullet⟩, member, rfl⟩ := List.mem_map.mp listed
    have chains := groundedChain_of_place valid grounded member
    have before := standIn?_of_place distinct member
    have after := standIn?_of_place afterDistinct
      (mem_withChains_pushedBullets valid distinct grounded member)
    have hides : ((pushedChain (bullet :: above)).any fun other => other.visibility == .hide) =
        (bullet :: above).any fun other => other.visibility == .hide := by
      rw [Bool.eq_iff_iff, List.any_eq_true, List.any_eq_true]
      simpa only [beq_iff_eq] using (marks_pushedChain chains).1
    dsimp only at before after
    rw [pushedChain] at hides
    rw [Line.id_pushedDown, hides] at after
    rw [after, before]
    by_cases hidden : ((bullet :: above).any fun other => other.visibility == .hide) = true
    · rw [if_pos hidden, if_pos hidden]
    · have shown : ∀ other ∈ above, other.visibility ≠ .hide := fun other isAbove isHidden =>
        hidden (List.any_eq_true.mpr ⟨other, List.mem_cons_of_mem _ isAbove, beq_iff_eq.mpr isHidden⟩)
      have folds := (marks_pushedChain chains.2).2 shown
      unfold outermostFold? at folds
      rw [if_neg hidden, if_neg hidden, folds]
  · rw [standIn?_of_not_mem listed, standIn?_of_not_mem (by rwa [map_id_pushedBullets])]

/-- The same bullets survive before and after the pass. -/
theorem survives_pushedBullets {place : List Line × Line}
    (member : place ∈ withChains [] bullets) :
    PathState.survives (markedIds .fold (pushedBullets [] bullets))
        (markedIds .hide (pushedBullets [] bullets)) (place.1.map Line.id, place.2.id) =
      PathState.survives (markedIds .fold bullets) (markedIds .hide bullets)
        (place.1.map Line.id, place.2.id) := by
  have afterDistinct := nodup_ids_pushedBullets distinct
  have chains := groundedChain_of_place valid grounded member
  have after := survives_bullet_iff afterDistinct
    (mem_withChains_pushedBullets valid distinct grounded member)
  rw [map_id_pushedChain, Line.id_pushedDown] at after
  rw [Bool.eq_iff_iff, after, survives_bullet_iff distinct member]
  have noHide : (∀ other ∈ pushedChain (place.2 :: place.1), other.visibility ≠ .hide) ↔
      ∀ other ∈ place.2 :: place.1, other.visibility ≠ .hide := by
    have hides := not_congr (marks_pushedChain chains).1
    simpa only [not_exists, not_and] using hides
  refine (and_congr_left' noHide).trans (and_congr_right fun shown => ?_)
  have folds := (marks_pushedChain chains.2).2 fun other isAbove =>
    shown other (List.mem_cons_of_mem _ isAbove)
  rw [← outermostFold?_eq_none_iff, ← outermostFold?_eq_none_iff, folds]

end Pushed

/-! ### Redrawn graphs -/

/-- The first bullet with an id is highlighted. -/
def isLitIn (bullets : List Line) (id : String) : Bool :=
  (bullets.find? fun bullet => bullet.id == id).any fun bullet => bullet.isHighlighted

theorem isLitIn_of_mem (distinct : (bullets.map Line.id).Nodup) {bullet : Line}
    (member : bullet ∈ bullets) : isLitIn bullets bullet.id = bullet.isHighlighted := by
  rw [isLitIn, find?_eq_some_of_nodup Line.id distinct member]
  rfl

/-- The node of a pushed bullet has another highlight at most. -/
theorem map_ofLine_pushedBullets {isLit : String → Bool} {before rest : List Line}
    (lit : ∀ bullet ∈ pushedBullets before rest, isLit bullet.id = bullet.isHighlighted) :
    (pushedBullets before rest).map (fun bullet => (bullet.depth, Node.ofLine bullet)) =
      rest.map fun bullet => (bullet.depth, (Node.ofLine bullet).highlightBy isLit) := by
  induction rest generalizing before with
  | nil => rfl
  | cons line rest inductionHypothesis =>
    rw [pushedBullets, List.forall_mem_cons] at lit
    obtain ⟨own, further⟩ := lit
    have node : Node.ofLine (line.pushedDown (outermostMarked? (shallowerChain line.depth before))
        (startsDeeper line.depth rest)) = (Node.ofLine line).highlightBy isLit := by
      obtain ⟨visibility, isHighlighted, same⟩ := line.pushedDown_eq
        (outermostMarked? (shallowerChain line.depth before)) (startsDeeper line.depth rest)
      rw [Line.id_pushedDown, same] at own
      rw [same, Node.highlightBy]
      show _ = Node.mk line.id line.kind line.label (isLit line.id) 0
      rw [own]
      rfl
    rw [pushedBullets, List.map_cons, List.map_cons, inductionHypothesis further, node,
      Line.depth_pushedDown]

theorem nest_eq_of_map_eq {others : List Line} {first second : Line → Node}
    (same : others.map (fun line => (line.depth, first line)) =
      bullets.map fun line => (line.depth, second line)) :
    (Forest.nest Line.depth others).map first = (Forest.nest Line.depth bullets).map second := by
  have nested : (Forest.nest Prod.fst (others.map fun line => (line.depth, first line))).map
      Prod.snd = (Forest.nest Prod.fst (bullets.map fun line => (line.depth, second line))).map
        Prod.snd := by rw [same]
  rw [Forest.nest_map, Forest.nest_map, Forest.map_map, Forest.map_map] at nested
  exact nested

theorem flatMap_authoredLinks_pushedBullets (before rest : List Line) :
    (pushedBullets before rest).flatMap authoredLinks = rest.flatMap authoredLinks := by
  rw [List.flatMap_def, List.flatMap_def, map_pushedBullets]
  intro outermost? isParent line
  obtain ⟨visibility, isHighlighted, same⟩ := line.pushedDown_eq outermost? isParent
  rw [same]
  rfl

section Redrawn

variable (distinct : (bullets.map Line.id).Nodup)

include distinct

theorem forest_ofBullets_pushedBullets :
    (Graph.ofBullets (pushedBullets [] bullets)).forest =
      (Graph.ofBullets bullets).forest.map
        (Node.highlightBy (isLitIn (pushedBullets [] bullets))) := by
  have afterDistinct := nodup_ids_pushedBullets distinct
  rw [Graph.ofBullets, Graph.ofBullets, Forest.map_map]
  exact nest_eq_of_map_eq (map_ofLine_pushedBullets fun _ => isLitIn_of_mem afterDistinct)

/-- The full graphs before and after the pass differ in highlights only. -/
theorem fullGraph_pushedBullets :
    (fullGraph (pushedBullets [] bullets)).forest =
        (fullGraph bullets).forest.map (Node.highlightBy (isLitIn (pushedBullets [] bullets))) ∧
      (fullGraph (pushedBullets [] bullets)).links = (fullGraph bullets).links := by
  have forest : (Graph.ofBullets (pushedBullets [] bullets)).withSizes.forest =
      (Graph.ofBullets bullets).withSizes.forest.map
        (Node.highlightBy (isLitIn (pushedBullets [] bullets))) := by
    unfold Graph.withSizes
    dsimp only
    rw [forest_ofBullets_pushedBullets distinct, Forest.withSizes_map_highlightBy]
  have links : (Graph.ofBullets (pushedBullets [] bullets)).withSizes.links =
      (Graph.ofBullets bullets).withSizes.links :=
    congrArg (LinkGraph.addEdges {}) (flatMap_authoredLinks_pushedBullets [] bullets)
  exact withImpliedEdges_highlightBy _ forest links

variable (valid : ∀ line ∈ bullets, line.isBullet = true)
  (grounded : ∀ place ∈ withChains [] bullets, IsGrounded place)

include valid grounded

/-- Surviving nodes have the same highlight before and after the pass. -/
theorem highlightBy_of_mem_prunedForest :
    ∀ node ∈ (fullGraph bullets).prunedForest.toList,
      node.highlightBy (isLitIn (pushedBullets [] bullets)) = node := by
  have afterDistinct := nodup_ids_pushedBullets distinct
  intro node member
  rw [← Forest.map_snd_pathsFrom []] at member
  obtain ⟨path, inside, rfl⟩ := List.mem_map.mp member
  obtain ⟨isPath, shows⟩ := Graph.mem_paths_prunedForest_iff.mp inside
  obtain ⟨place, placeMember, above, sameId, sameLight⟩ := exists_place_of_mem_paths valid isPath
  have survives : PathState.survives (markedIds .fold bullets) (markedIds .hide bullets)
      (path.1.map Node.id, path.2.id) = true :=
    (Graph.survives_eq_decide_shows path).trans (decide_eq_true shows)
  rw [above, sameId, survives_bullet_iff distinct placeMember, List.forall_mem_cons] at survives
  -- Nothing closes the bullet, so the pass left it alone.
  have pushed := mem_withChains_pushedBullets valid distinct grounded placeMember
  rw [pushedDown_of_shown (groundedChain_of_place valid grounded placeMember) survives.1.2
    survives.2] at pushed
  have lit := isLitIn_of_mem afterDistinct (mem_bullets_of_mem_place pushed _ List.mem_cons_self)
  rw [← sameId, ← sameLight] at lit
  rw [Node.highlightBy, lit]

theorem prunedForest_pushedBullets :
    (fullGraph (pushedBullets [] bullets)).prunedForest = (fullGraph bullets).prunedForest := by
  have survives : ∀ path ∈ (fullGraph bullets).forest.pathsFrom [],
      PathState.survives (markedIds .fold (pushedBullets [] bullets))
          (markedIds .hide (pushedBullets [] bullets)) (path.1.map Node.id, path.2.id) =
        PathState.survives (markedIds .fold bullets) (markedIds .hide bullets)
          (path.1.map Node.id, path.2.id) := by
    intro path member
    obtain ⟨place, placeMember, above, sameId, -⟩ := exists_place_of_mem_paths valid member
    rw [above, sameId]
    exact survives_pushedBullets valid distinct grounded placeMember
  unfold Graph.prunedForest
  rw [(fullGraph_pushedBullets distinct).1, pruneForest_map_highlightBy]
  refine (congrArg _ (pruneForest_congr survives)).trans ?_
  exact Forest.map_eq_self (highlightBy_of_mem_prunedForest distinct valid grounded)

theorem links_prune_pushedBullets :
    (fullGraph (pushedBullets [] bullets)).prune.links = (fullGraph bullets).prune.links := by
  have afterValid : ∀ line ∈ pushedBullets [] bullets, line.isBullet = true :=
    isBullet_of_mem_pushedBullets valid
  have afterDistinct := nodup_ids_pushedBullets distinct
  have tables : reroute? (fullGraph (pushedBullets [] bullets)).rerouteTable =
      reroute? (fullGraph bullets).rerouteTable := by
    funext edge
    unfold reroute?
    simp only [resolve_rerouteTable_eq afterValid afterDistinct,
      resolve_rerouteTable_eq valid distinct, standIn?_pushedBullets valid distinct grounded]
  unfold Graph.prune LinkGraph.reroute
  dsimp only
  rw [tables, (fullGraph_pushedBullets distinct).2]

/-- The pass changes no node that is shown and no link of the pruned graph. -/
theorem prunedGraph_pushedBullets :
    (prunedGraph (pushedBullets [] bullets)).forest = (prunedGraph bullets).forest ∧
      (prunedGraph (pushedBullets [] bullets)).links = (prunedGraph bullets).links := by
  rw [prunedGraph_eq, prunedGraph_eq]
  exact withImpliedEdges_congr (prunedForest_pushedBullets distinct valid grounded)
    (links_prune_pushedBullets distinct valid grounded)

end Redrawn

/-! ### Documents -/

namespace Document

/-- Pushing visibility down leaves the pruned diagram as it is: the same nodes in the same order, and
the same links. -/
theorem compile_propagateVisibility (document : Document)
    (legal : firstBadIndent? 0 document.bullets = none)
    (distinct : (document.bullets.map Line.id).Nodup)
    (grounded : ∀ place ∈ withChains [] document.bullets, IsGrounded place) :
    ∃ before after, Graph.compile true document.lines = .ok before ∧
      Graph.compile true document.propagateVisibility.lines = .ok after ∧
        after.forest = before.forest ∧ after.links = before.links := by
  have valid : ∀ line ∈ document.bullets, line.isBullet = true :=
    fun line member => isBullet_of_mem_bulletsOf member
  obtain ⟨forest, links⟩ := prunedGraph_pushedBullets distinct valid grounded
  unfold prunedGraph at forest links
  have before : Graph.compile true document.lines =
      .ok ((Graph.ofBullets document.bullets).drawn true).normalize :=
    Graph.compile_eq_ok legal true
  have after := compile_lines_propagateVisibility legal
  -- From here on only the forests and the links of the two graphs count.
  generalize (Graph.ofBullets document.bullets).drawn true = shown at before forest links
  generalize (Graph.ofBullets (pushedBullets [] document.bullets)).drawn true = shownAfter
    at after forest links
  exact ⟨_, _, before, after, forest, congrArg LinkGraph.normalize links⟩

/-- A nested fold loses its marker and a hidden bullet its highlight, and the diagram stays. -/
theorem compile_propagateVisibility_nested :
    let document := ofText 2 (IdSupply.ofListedHex []) "- A // a [+] [!]
  - B // b [+]
    - C // c [++] >d
- D // d
- E // e [x]
  - F // f [!] >d
"
    (document.bullets.map fun bullet => bullet.visibility) ≠
        (document.propagateVisibility.bullets.map fun bullet => bullet.visibility) ∧
      ∃ before after, Graph.compile true document.lines = .ok before ∧
        Graph.compile true document.propagateVisibility.lines = .ok after ∧
          after.forest = before.forest ∧ after.links = before.links ∧
            before.nodeIds = ["a", "d"] := by
  intro document
  have legal : firstBadIndent? 0 document.bullets = none := by decide +kernel
  have distinct : (document.bullets.map Line.id).Nodup := by decide +kernel
  have grounded : ∀ place ∈ withChains [] document.bullets, IsGrounded place := by decide +kernel
  obtain ⟨before, after, first, second, forest, links⟩ :=
    compile_propagateVisibility document legal distinct grounded
  have ids : (Graph.compile true document.lines).map Graph.nodeIds = .ok ["a", "d"] := by
    decide +kernel
  rw [first] at ids
  exact ⟨by decide +kernel, before, after, first, second, forest, links, Except.ok.inj ids⟩

end Document

end OutlineDiagram
