/-
This file proves that indentation decides the forest of an outline. Building fails at
the first bullet that is more than one level deeper than the bullet before it. If
there is none, every chain of nearest shallower bullets has as many members as the
depth of its bullet says, so a walk meets the bullets in the order of the outline,
each at its depth and below the nearest earlier bullet of smaller depth.
-/

import OutlineDiagram.Proofs.Graph.Survivors

namespace OutlineDiagram

/-! ### Steps of depth -/

/-- Each bullet with the depth of the bullet before it, where a given depth is before the first. -/
def depthSteps (start : Int) (bullets : List Line) : List (Int × Line) :=
  (start :: bullets.map Line.depth).zip bullets

/-- A bullet is more than one level deeper than the bullet before it. -/
def TooDeep (step : Int × Line) : Prop := step.1 + 1 < step.2.depth

instance : DecidablePred TooDeep :=
  fun step => inferInstanceAs (Decidable (step.1 + 1 < step.2.depth))

/-- What is reported about a bullet that is too deep. -/
def indentError (step : Int × Line) : StructureError := ⟨step.2.index, step.2.depth, step.1 + 1⟩

theorem depthSteps_cons (start : Int) (bullet : Line) (rest : List Line) :
    depthSteps start (bullet :: rest) = (start, bullet) :: depthSteps bullet.depth rest := rfl

/-- The error is that of the first bullet that is too deep. -/
theorem firstBadIndent?_eq (start : Int) (bullets : List Line) :
    firstBadIndent? (start + 1) bullets =
      ((depthSteps start bullets).find? fun step => TooDeep step).map indentError := by
  induction bullets generalizing start with
  | nil => rfl
  | cons bullet rest inductionHypothesis =>
    rw [firstBadIndent?, depthSteps_cons, List.find?_cons]
    by_cases deep : TooDeep (start, bullet)
    · rw [decide_eq_true deep]
      exact if_pos deep
    · rw [decide_eq_false deep, ← inductionHypothesis]
      exact if_neg deep

/-! ### Chains of legal bullets -/

/-- The nearest earlier bullet that is less deep than a given depth. -/
def nearestShallower? (depth : Int) (earlier : List Line) : Option Line :=
  earlier.reverse.find? fun other => other.depth < depth

/-- Where no bullet is too deep, a bullet has as many bullets above it as its depth says. What is
passed already has this property for every depth that is allowed next. -/
theorem length_of_mem_withChains {start : Int} {before bullets : List Line}
    (valid : ∀ line ∈ bullets, line.isBullet = true)
    (legal : ∀ step ∈ depthSteps start bullets, ¬ TooDeep step)
    (fits : ∀ depth, 0 ≤ depth → depth ≤ start + 1 →
      ((shallowerChain depth before).length : Int) = depth)
    {place : List Line × Line} (member : place ∈ withChains before bullets) :
    (place.1.length : Int) = place.2.depth := by
  induction bullets generalizing start before with
  | nil => exact absurd member List.not_mem_nil
  | cons bullet rest inductionHypothesis =>
    rw [depthSteps_cons] at legal
    have isBullet := valid bullet List.mem_cons_self
    have bound : bullet.depth ≤ start + 1 := Int.not_lt.mp (legal _ List.mem_cons_self)
    have own := fits bullet.depth (depth_nonneg_of_isBullet isBullet) bound
    rcases List.mem_cons.mp member with rfl | further
    · exact own
    · refine inductionHypothesis (fun line inside => valid line (List.mem_cons_of_mem _ inside))
        (fun step inside => legal step (List.mem_cons_of_mem _ inside))
        (fun depth nonneg allowed => ?_) further
      -- A depth up to the bullet's own looks past the bullet. The only deeper one that is allowed
      -- next has the bullet as its nearest shallower one.
      by_cases shallow : depth ≤ bullet.depth
      · rw [shallowerChain_cons_of_le shallow]
        exact fits depth nonneg (Int.le_trans shallow bound)
      · have deeper : bullet.depth < depth := Int.not_le.mp shallow
        rw [shallowerChain_cons_of_lt isBullet deeper, List.length_cons]
        omega

theorem length_withChains (before bullets : List Line) :
    (withChains before bullets).length = bullets.length := by
  rw [← List.length_map (f := Prod.snd), map_snd_withChains]

/-- The chain of a bullet stands at the position of the bullet. -/
theorem getElem?_withChains (earlier later : List Line) (bullet : Line) :
    (withChains [] (earlier ++ bullet :: later))[earlier.length]? =
      some (shallowerChain bullet.depth earlier.reverse, bullet) := by
  rw [withChains_append, List.getElem?_append_right (by rw [length_withChains]), length_withChains,
    Nat.sub_self, withChains, List.append_nil]
  rfl

/-! ### Nested bullets -/

/-- A forest nests bullets as their depths say. -/
structure NestsBullets (bullets : List Line) (forest : Forest Node) : Prop where
  /-- A walk meets one node for each bullet, in the order of the bullets and at its depth. -/
  visits_eq : (forest.visits.map fun visit => ((visit.level : Int), visit.value)) =
    bullets.map fun bullet => (bullet.depth, Node.ofLine bullet)
  /-- The parent of a bullet is the nearest earlier bullet of smaller depth; where there is none,
  nothing is above the bullet. -/
  parent_eq : ∀ earlier bullet later, bullets = earlier ++ bullet :: later →
    forest.paths[earlier.length]?.map (fun path => (path.1.head?, path.2)) =
      some ((nearestShallower? bullet.depth earlier).map Node.ofLine, Node.ofLine bullet)

theorem paths_map_ofLine_nest {bullets : List Line}
    (valid : ∀ line ∈ bullets, line.isBullet = true) :
    ((Forest.nest Line.depth bullets).map Node.ofLine).paths =
      (withChains [] bullets).map fun place => (place.1.map Node.ofLine, Node.ofLine place.2) := by
  rw [Forest.paths_map, Forest.paths_nest valid]

theorem nestsBullets_nest {bullets : List Line} (valid : ∀ line ∈ bullets, line.isBullet = true)
    (legal : ∀ step ∈ depthSteps (-1) bullets, ¬ TooDeep step) :
    NestsBullets bullets ((Forest.nest Line.depth bullets).map Node.ofLine) where
  visits_eq := by
    have fits : ∀ depth, 0 ≤ depth → depth ≤ (-1 : Int) + 1 →
        ((shallowerChain depth []).length : Int) = depth := by
      intro depth nonneg allowed
      rw [shallowerChain, List.length_nil]
      omega
    have lengths : ∀ place ∈ withChains [] bullets, (place.1.length : Int) = place.2.depth :=
      fun place member => length_of_mem_withChains valid legal fits member
    calc (((Forest.nest Line.depth bullets).map Node.ofLine).visits.map fun visit =>
          ((visit.level : Int), visit.value))
        = ((Forest.nest Line.depth bullets).map Node.ofLine).paths.map fun path =>
            ((path.1.length : Int), path.2) :=
          Forest.map_visits (fun met => ((met.1 : Int), met.2)) _
      _ = (withChains [] bullets).map fun place => (place.2.depth, Node.ofLine place.2) := by
          rw [paths_map_ofLine_nest valid, List.map_map]
          refine List.map_congr_left fun place member => ?_
          rw [Function.comp_apply, List.length_map, lengths place member]
      _ = bullets.map fun bullet => (bullet.depth, Node.ofLine bullet) := by
          conv_rhs => rw [← map_snd_withChains [] bullets, List.map_map]
          rfl
  parent_eq := by
    rintro earlier bullet later rfl
    have earlierValid : ∀ line ∈ earlier.reverse, line.isBullet = true := fun line member =>
      valid line (List.mem_append_left _ (List.mem_reverse.mp member))
    rw [paths_map_ofLine_nest valid, List.getElem?_map, getElem?_withChains, Option.map_some,
      Option.map_some, List.head?_map, head?_shallowerChain earlierValid, nearestShallower?]

namespace Graph

variable {lines : List Line}

theorem build_eq_error_iff {error : StructureError} :
    build lines = .error error ↔ firstBadIndent? 0 (bulletsOf lines) = some error := by
  rw [build_eq]
  cases firstBadIndent? 0 (bulletsOf lines) with
  | none => simp
  | some found => simp

theorem firstBadIndent?_bulletsOf (lines : List Line) :
    firstBadIndent? 0 (bulletsOf lines) =
      ((depthSteps (-1) (bulletsOf lines)).find? fun step => TooDeep step).map indentError := by
  have first := firstBadIndent?_eq (-1) (bulletsOf lines)
  rwa [show (-1 : Int) + 1 = 0 by decide] at first

theorem build_eq_error_iff_first {error : StructureError} :
    build lines = .error error ↔
      ∃ before step after, depthSteps (-1) (bulletsOf lines) = before ++ step :: after ∧
        (∀ earlier ∈ before, ¬ TooDeep earlier) ∧ TooDeep step ∧ error = indentError step := by
  rw [build_eq_error_iff, firstBadIndent?_bulletsOf, Option.map_eq_some_iff]
  constructor
  · rintro ⟨step, found, rfl⟩
    obtain ⟨deep, before, after, split, legal⟩ := List.find?_eq_some_iff_append.mp found
    exact ⟨before, step, after, split, by simpa using legal, of_decide_eq_true deep, rfl⟩
  · rintro ⟨before, step, after, split, legal, deep, rfl⟩
    refine ⟨step, List.find?_eq_some_iff_append.mpr ⟨decide_eq_true deep, before, after, split, ?_⟩,
      rfl⟩
    simpa using legal

theorem build_eq_ok_of_legal (legal : ∀ step ∈ depthSteps (-1) (bulletsOf lines), ¬ TooDeep step) :
    build lines = .ok (ofBullets (bulletsOf lines)) := by
  have none : (depthSteps (-1) (bulletsOf lines)).find? (fun step => TooDeep step) = none :=
    List.find?_eq_none.mpr fun step member => by simpa using legal step member
  rw [build_eq, firstBadIndent?_bulletsOf, none]
  rfl

/-- Building fails where some bullet is more than one level deeper than the bullet before it, and
reports the first one that is. Where there is none it nests the bullets as their depths say. -/
theorem build_indentation (lines : List Line) :
    ((∃ error, build lines = .error error) ↔
        ∃ step ∈ depthSteps (-1) (bulletsOf lines), TooDeep step) ∧
      (∀ error, build lines = .error error ↔
        ∃ before step after, depthSteps (-1) (bulletsOf lines) = before ++ step :: after ∧
          (∀ earlier ∈ before, ¬ TooDeep earlier) ∧ TooDeep step ∧ error = indentError step) ∧
      ((∀ step ∈ depthSteps (-1) (bulletsOf lines), ¬ TooDeep step) →
        ∃ graph, build lines = .ok graph ∧ NestsBullets (bulletsOf lines) graph.forest) := by
  refine ⟨⟨?_, fun someDeep => ?_⟩, fun error => build_eq_error_iff_first, fun legal => ?_⟩
  · rintro ⟨error, fails⟩
    obtain ⟨before, step, after, split, -, deep, -⟩ := build_eq_error_iff_first.mp fails
    exact ⟨step, split ▸ List.mem_append_right before List.mem_cons_self, deep⟩
  · cases built : build lines with
    | error error => exact ⟨error, rfl⟩
    | ok graph =>
      exfalso
      have none := firstBadIndent?_of_build built
      rw [firstBadIndent?_bulletsOf, Option.map_eq_none_iff, List.find?_eq_none] at none
      obtain ⟨step, member, deep⟩ := someDeep
      exact none step member (decide_eq_true deep)
  · have valid : ∀ line ∈ bulletsOf lines, line.isBullet = true :=
      fun line member => isBullet_of_mem_bulletsOf member
    exact ⟨_, build_eq_ok_of_legal legal, nestsBullets_nest valid legal⟩

/-- A comment between two bullets counts for nothing, however it is indented, and a bullet may be
less deep than the one before it by any number of levels. -/
theorem build_indentation_dedent :
    let lines : List Line :=
      [{ depth := 0, placeholderId := "a" }, { depth := 1, placeholderId := "b" },
        { depth := 7, isComment := true }, { depth := 2, placeholderId := "c" },
        { depth := 0, placeholderId := "d" }]
    (∀ step ∈ depthSteps (-1) (bulletsOf lines), ¬ TooDeep step) ∧
      ∃ graph, build lines = .ok graph ∧
        graph.forest.visits.map (fun visit => ((visit.level : Int), visit.value.id)) =
          [(0, "a"), (1, "b"), (2, "c"), (0, "d")] := by
  intro lines
  have legal : ∀ step ∈ depthSteps (-1) (bulletsOf lines), ¬ TooDeep step := by decide +kernel
  obtain ⟨graph, built, nests⟩ := (build_indentation lines).2.2 legal
  refine ⟨legal, graph, built, ?_⟩
  have met := congrArg (List.map fun met => (met.1, met.2.id)) nests.visits_eq
  rw [List.map_map, List.map_map] at met
  exact met.trans (by decide +kernel)

end Graph

end OutlineDiagram
