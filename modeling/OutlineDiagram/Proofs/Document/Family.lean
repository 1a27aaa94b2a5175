/-
This file proves that the bullets around a bullet, found by looking along the list
of lines, are those around its node in the forest. Looking back finds the way up,
looking ahead finds what lies below, and each of the two undoes the other. This
needs no legal indentation: depth nests any list of bullets, and where a graph is
built its forest is that one.
-/

import OutlineDiagram.Proofs.Document.Chain
import OutlineDiagram.Proofs.Document.Places
import OutlineDiagram.Proofs.Document.Propagate
import OutlineDiagram.Proofs.Forest.Below
import OutlineDiagram.Proofs.Graph.Indentation

namespace OutlineDiagram

/-! ### Chains and runs as lists -/

theorem bulletsOf_append (first second : List Line) :
    bulletsOf (first ++ second) = bulletsOf first ++ bulletsOf second :=
  List.filter_append _ _

/-- Only bullets are looked at on the way back. -/
theorem shallowerChain_bulletsOf (depth : Int) (before : List Line) :
    shallowerChain depth (bulletsOf before) = shallowerChain depth before := by
  induction before generalizing depth with
  | nil => rfl
  | cons line rest inductionHypothesis =>
    by_cases bullet : line.isBullet = true
    · rw [bulletsOf, List.filter_cons_of_pos bullet, shallowerChain, shallowerChain, ← bulletsOf,
        inductionHypothesis, inductionHypothesis]
    · rw [bulletsOf, List.filter_cons_of_neg bullet, shallowerChain,
        if_neg (by simp [bullet])]
      exact inductionHypothesis depth

/-- After its first bullet a chain goes on as the chain of that bullet. -/
theorem exists_of_shallowerChain_eq_cons {depth : Int} {before further : List Line}
    {nearest : Line} (chain : shallowerChain depth before = nearest :: further) :
    ∃ near far, before = near ++ nearest :: far ∧ further = shallowerChain nearest.depth far := by
  induction before with
  | nil => exact absurd chain (by simp [shallowerChain])
  | cons line rest inductionHypothesis =>
    rw [shallowerChain] at chain
    split at chain
    · obtain ⟨rfl, rfl⟩ := List.cons.inj chain
      exact ⟨[], rest, rfl, rfl⟩
    · obtain ⟨near, far, rfl, rfl⟩ := inductionHypothesis chain
      exact ⟨line :: near, far, rfl, rfl⟩

/-- A bullet is in a chain when it is less deep than the start and than all bullets passed on the
way to it. -/
theorem mem_shallowerChain_iff {depth : Int} {before : List Line} {line : Line}
    (valid : ∀ other ∈ before, other.isBullet = true) :
    line ∈ shallowerChain depth before ↔
      ∃ near far, before = near ++ line :: far ∧ line.depth < depth ∧
        ∀ other ∈ near, line.depth < other.depth := by
  constructor
  · intro member
    induction before generalizing depth with
    | nil => exact absurd member List.not_mem_nil
    | cons first rest inductionHypothesis =>
      rw [List.forall_mem_cons] at valid
      by_cases shallower : first.depth < depth
      · rw [shallowerChain_cons_of_lt valid.1 shallower] at member
        rcases List.mem_cons.mp member with rfl | further
        · exact ⟨[], rest, rfl, shallower, fun _ inside => absurd inside List.not_mem_nil⟩
        · obtain ⟨near, far, rfl, lower, passed⟩ := inductionHypothesis valid.2 further
          exact ⟨first :: near, far, rfl, Int.lt_trans lower shallower,
            List.forall_mem_cons.mpr ⟨lower, passed⟩⟩
      · have deeper := Int.not_lt.mp shallower
        rw [shallowerChain_cons_of_le deeper] at member
        obtain ⟨near, far, rfl, lower, passed⟩ := inductionHypothesis valid.2 member
        exact ⟨first :: near, far, rfl, lower,
          List.forall_mem_cons.mpr ⟨Int.lt_of_lt_of_le lower deeper, passed⟩⟩
  · rintro ⟨near, far, rfl, lower, passed⟩
    induction near generalizing depth with
    | nil =>
      rw [List.nil_append] at valid ⊢
      rw [shallowerChain_cons_of_lt (valid line List.mem_cons_self) lower]
      exact List.mem_cons_self
    | cons first rest inductionHypothesis =>
      rw [List.cons_append] at valid ⊢
      rw [List.forall_mem_cons] at valid passed
      by_cases shallower : first.depth < depth
      · rw [shallowerChain_cons_of_lt valid.1 shallower]
        exact List.mem_cons_of_mem _ (inductionHypothesis valid.2 passed.1 passed.2)
      · rw [shallowerChain_cons_of_le (Int.not_lt.mp shallower)]
        exact inductionHypothesis valid.2 lower passed.2

/-- A member of the leading run that passes comes after members that all pass. -/
theorem mem_takeWhile_iff {α : Type} {passes : α → Bool} {members : List α} {member : α} :
    member ∈ members.takeWhile passes ↔
      ∃ near far, members = near ++ member :: far ∧ passes member = true ∧
        ∀ other ∈ near, passes other = true := by
  constructor
  · intro inside
    obtain ⟨near, far, split⟩ := List.append_of_mem inside
    refine ⟨near, far ++ members.dropWhile passes, ?_, List.mem_takeWhile_imp inside,
      fun other earlier => ?_⟩
    · rw [← List.cons_append, ← List.append_assoc, ← split, List.takeWhile_append_dropWhile]
    · exact List.mem_takeWhile_imp (split ▸ List.mem_append_left _ earlier)
  · rintro ⟨near, far, rfl, isLast, passed⟩
    rw [List.takeWhile_append_of_pos passed, List.takeWhile_cons_of_pos isLast]
    exact List.mem_append_right _ List.mem_cons_self

namespace Document

variable {document : Document}

/-! ### Looking along the bullets -/

theorem linesBefore_eq {line : Line} {earlier later : List Line}
    (placed : document.IsPlaced) (split : document.lines = earlier ++ line :: later) :
    document.linesBefore line = earlier ∧ document.linesAfter line = later := by
  have apart : ∀ other ∈ earlier, (other.index != line.index) = true := by
    intro other member
    rw [IsPlaced, split, List.map_append, List.nodup_append] at placed
    have different := placed.2.2 _ (List.mem_map_of_mem member) _ List.mem_cons_self
    simpa using different
  have stops : ¬ (fun other : Line => other.index != line.index) line = true := by simp
  constructor
  · rw [linesBefore, split, List.takeWhile_append_of_pos apart,
      List.takeWhile_cons_of_neg (p := fun other : Line => other.index != line.index) stops,
      List.append_nil]
  · rw [linesAfter, split, List.dropWhile_append_of_pos apart,
      List.dropWhile_cons_of_neg (p := fun other : Line => other.index != line.index) stops]
    rfl

/-- What is above and below a bullet is read off the bullets before and after it. -/
theorem family_of_split {bullet : Line} {earlier later : List Line}
    (placed : document.IsPlaced) (split : document.bullets = earlier ++ bullet :: later) :
    document.ancestors bullet = shallowerChain bullet.depth earlier.reverse ∧
      document.descendants bullet =
        later.takeWhile (Forest.isDeeper Line.depth bullet.depth) ∧
      document.isParent bullet = startsDeeper bullet.depth later := by
  have member : bullet ∈ document.bullets :=
    split ▸ List.mem_append_right earlier List.mem_cons_self
  obtain ⟨isLine, isBullet⟩ := List.mem_filter.mp member
  obtain ⟨linesEarlier, linesLater, lines⟩ := List.append_of_mem isLine
  have bullets : document.bullets = bulletsOf linesEarlier ++ bullet :: bulletsOf linesLater := by
    rw [Document.bullets, lines, bulletsOf_append]
    exact congrArg _ (List.filter_cons_of_pos isBullet)
  have fresh := placed.nodup_bullets
  rw [split, List.nodup_append, List.nodup_cons] at fresh
  have notEarlier : bullet ∉ earlier := fun inside =>
    fresh.2.2 bullet inside bullet List.mem_cons_self rfl
  obtain ⟨rfl, -, rfl⟩ := (List.append_cons_inj_of_notMem notEarlier fresh.2.1.1).mp
    (split.symm.trans bullets)
  obtain ⟨before, after⟩ := linesBefore_eq placed lines
  refine ⟨?_, ?_, ?_⟩
  · rw [ancestors, before, bulletsOf, ← List.filter_reverse, ← bulletsOf, shallowerChain_bulletsOf]
  · rw [descendants, deeperRun, after]
    rfl
  · rw [isParent, after, startsDeeper_bulletsOf]

/-- The ancestors of a bullet are its parent and the ancestors of its parent. -/
theorem ancestors_eq_of_parent? (placed : document.IsPlaced) {bullet : Line}
    (member : bullet ∈ document.bullets) :
    document.ancestors bullet =
      match document.parent? bullet with
      | none => []
      | some parent => parent :: document.ancestors parent := by
  obtain ⟨earlier, later, split⟩ := List.append_of_mem member
  rw [parent?]
  cases chain : document.ancestors bullet with
  | nil => rfl
  | cons parent further =>
    rw [(family_of_split placed split).1] at chain
    obtain ⟨near, far, reversed, rfl⟩ := exists_of_shallowerChain_eq_cons chain
    have whole : document.bullets = far.reverse ++ parent :: (near.reverse ++ bullet :: later) := by
      rw [split, ← List.reverse_reverse earlier, reversed]
      simp
    have onward := (family_of_split placed whole).1
    rw [List.reverse_reverse] at onward
    rw [List.head?_cons, ← onward]

/-- Looking ahead and looking back undo each other, whatever the indentation is. -/
theorem mem_descendants_iff_of_placed (placed : document.IsPlaced) {upper lower : Line}
    (upperMember : upper ∈ document.bullets) (lowerMember : lower ∈ document.bullets) :
    lower ∈ document.descendants upper ↔ upper ∈ document.ancestors lower := by
  have valid : ∀ line ∈ document.bullets, line.isBullet = true :=
    fun line member => isBullet_of_mem_bulletsOf member
  constructor
  · intro below
    obtain ⟨earlier, later, split⟩ := List.append_of_mem upperMember
    rw [(family_of_split placed split).2.1] at below
    obtain ⟨near, far, rfl, deeper, passed⟩ := mem_takeWhile_iff.mp below
    have whole : document.bullets = (earlier ++ upper :: near) ++ lower :: far := by
      rw [split, List.append_assoc, List.cons_append]
    rw [(family_of_split placed whole).1, mem_shallowerChain_iff]
    · refine ⟨near.reverse, earlier.reverse, by simp, of_decide_eq_true deeper, ?_⟩
      exact fun other inside => of_decide_eq_true (passed other (List.mem_reverse.mp inside))
    · intro other inside
      exact valid other (whole ▸ List.mem_append_left _ (List.mem_reverse.mp inside))
  · intro above
    obtain ⟨earlier, later, split⟩ := List.append_of_mem lowerMember
    have earlierValid : ∀ other ∈ earlier.reverse, other.isBullet = true := fun other inside =>
      valid other (split ▸ List.mem_append_left _ (List.mem_reverse.mp inside))
    rw [(family_of_split placed split).1, mem_shallowerChain_iff earlierValid] at above
    obtain ⟨near, far, reversed, shallower, passed⟩ := above
    have whole : document.bullets = far.reverse ++ upper :: (near.reverse ++ lower :: later) := by
      rw [split, ← List.reverse_reverse earlier, reversed]
      simp
    rw [(family_of_split placed whole).2.1, mem_takeWhile_iff]
    refine ⟨near.reverse, later, rfl, decide_eq_true shallower, fun other inside => ?_⟩
    exact decide_eq_true (passed other (List.mem_reverse.mp inside))

/-! ### Looking along the forest -/

theorem withChains_bullets (placed : document.IsPlaced) {earlier later : List Line}
    (split : document.bullets = earlier ++ later) :
    withChains earlier.reverse later =
      later.map fun bullet => (document.ancestors bullet, bullet) := by
  induction later generalizing earlier with
  | nil => rfl
  | cons bullet rest inductionHypothesis =>
    have further := inductionHypothesis (split.trans (List.append_cons earlier bullet rest))
    rw [List.reverse_append] at further
    rw [withChains, List.map_cons, ← further, (family_of_split placed split).1]
    rfl

theorem withRuns_bullets (placed : document.IsPlaced) {earlier later : List Line}
    (split : document.bullets = earlier ++ later) :
    Forest.withRuns Line.depth later =
      later.map fun bullet => (document.descendants bullet, bullet) := by
  induction later generalizing earlier with
  | nil => rfl
  | cons bullet rest inductionHypothesis =>
    have further := inductionHypothesis (split.trans (List.append_cons earlier bullet rest))
    rw [Forest.withRuns, List.map_cons, ← further, (family_of_split placed split).2.1]

/-- A bullet has deeper ones below it if the next one is deeper. -/
theorem isParent_eq (placed : document.IsPlaced) {bullet : Line}
    (member : bullet ∈ document.bullets) :
    document.isParent bullet = !(document.descendants bullet).isEmpty := by
  obtain ⟨earlier, later, split⟩ := List.append_of_mem member
  have bullets : bulletsOf later = later := by
    refine List.filter_eq_self.mpr fun other inside => ?_
    have listed : other ∈ document.bullets :=
      split ▸ List.mem_append_right earlier (List.mem_cons_of_mem _ inside)
    exact isBullet_of_mem_bulletsOf listed
  obtain ⟨-, below, next⟩ := family_of_split placed split
  rw [next, below, startsDeeper, bullets]
  cases later with
  | nil => rfl
  | cons other rest =>
    rw [List.takeWhile_cons]
    cases deeper : Forest.isDeeper Line.depth bullet.depth other with
    | true => exact deeper
    | false => exact deeper

/-- The forest shows what is above and below each bullet of the document. -/
structure ShowsFamilies (document : Document) (forest : Forest Line) : Prop where
  /-- A walk meets the bullets in their order. -/
  toList_eq : forest.toList = document.bullets
  /-- The bullet right above a bullet is the parent that looking back finds; a bullet on top has
  none. -/
  parent_eq : (forest.paths.map fun path => (path.1.head?, path.2)) =
    document.bullets.map fun bullet => (document.parent? bullet, bullet)
  /-- The bullets on the way up are those that looking back finds, closest first. -/
  ancestors_eq : forest.paths =
    document.bullets.map fun bullet => (document.ancestors bullet, bullet)
  /-- The bullets below a bullet, in pre-order, are those that looking ahead finds. -/
  descendants_eq : (forest.visits.map fun visit => (visit.below.toList, visit.value)) =
    document.bullets.map fun bullet => (document.descendants bullet, bullet)
  /-- A bullet counts as a parent if something is below it. -/
  isParent_eq : (forest.visits.map fun visit => (!visit.below.isEmpty, visit.value)) =
    document.bullets.map fun bullet => (document.isParent bullet, bullet)

theorem showsFamilies_nest (placed : document.IsPlaced) :
    document.ShowsFamilies (Forest.nest Line.depth document.bullets) := by
  have valid : ∀ line ∈ document.bullets, line.isBullet = true :=
    fun line member => isBullet_of_mem_bulletsOf member
  have ancestors := (Forest.paths_nest valid).trans
    (withChains_bullets placed (List.nil_append document.bullets).symm)
  have descendants := (Forest.map_below_visitsFrom_nest Line.depth 0 document.bullets).trans
    (withRuns_bullets placed (List.nil_append document.bullets).symm)
  refine ⟨Forest.toList_nest _ _, ?_, ancestors, descendants, ?_⟩
  · rw [ancestors, List.map_map]
    rfl
  · calc ((Forest.nest Line.depth document.bullets).visits.map fun visit =>
          (!visit.below.isEmpty, visit.value))
        = ((Forest.nest Line.depth document.bullets).visits.map fun visit =>
            (visit.below.toList, visit.value)).map fun place => (!place.1.isEmpty, place.2) := by
          simp only [List.map_map, Forest.isEmpty_eq, Function.comp_def]
      _ = document.bullets.map fun bullet => (!(document.descendants bullet).isEmpty, bullet) := by
          rw [Forest.visits, descendants, List.map_map]
          rfl
      _ = document.bullets.map fun bullet => (document.isParent bullet, bullet) := by
          refine List.map_congr_left fun bullet member => ?_
          rw [isParent_eq placed member]

/-! ### Sessions -/

/-- In every session looking ahead and looking back undo each other. Where the outline has a graph,
what they find around a bullet is what the forest of the graph shows around its node. -/
theorem family_afterAll (unit : Int) (supply : IdSupply) (text : String) (edits : List Edit) :
    let document := (ofText unit supply text).afterAll edits
    (∀ upper ∈ document.bullets, ∀ lower ∈ document.bullets,
        lower ∈ document.descendants upper ↔ upper ∈ document.ancestors lower) ∧
      ∀ graph, Graph.build document.lines = .ok graph →
        ∃ forest : Forest Line,
          graph.forest = forest.map Node.ofLine ∧ document.ShowsFamilies forest := by
  intro document
  have placed : document.IsPlaced := isPlaced_afterAll unit supply text edits
  refine ⟨fun upper upperMember lower lowerMember =>
    mem_descendants_iff_of_placed placed upperMember lowerMember, fun graph built => ?_⟩
  rw [Graph.eq_ofBullets_of_build built]
  exact ⟨_, rfl, showsFamilies_nest placed⟩

/-- A comment, a blank line and a dedent of two levels stand between a bullet and those around it. -/
theorem family_afterAll_dedent :
    let document := (ofText 2 (IdSupply.ofListedHex []) "- A
// note
  - B

    - C
- D
").afterAll [.line .hide 3]
    ∃ graph, Graph.build document.lines = .ok graph ∧
      graph.forest.paths.map (fun path => (path.1.map Node.label, path.2.label)) =
        [([], "A"), (["A"], "B"), (["B", "A"], "C"), ([], "D")] ∧
      ∃ forest, graph.forest = forest.map Node.ofLine ∧ document.ShowsFamilies forest := by
  intro document
  have legal : firstBadIndent? 0 (bulletsOf document.lines) = none := by decide +kernel
  have built : Graph.build document.lines = .ok (Graph.ofBullets (bulletsOf document.lines)) := by
    rw [Graph.build_eq, legal]
  refine ⟨_, built, by decide +kernel, ?_⟩
  exact (family_afterAll 2 (IdSupply.ofListedHex []) _ [.line .hide 3]).2 _ built

end Document

end OutlineDiagram
