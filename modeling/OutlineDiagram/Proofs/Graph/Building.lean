/-
This file proves what building an outline bullet by bullet comes to. Between two
bullets the addresses that can receive the next bullet are the initial parts of the
address of the last bullet, which leads along the last trees, and every bullet lies
at the level that its depth tells. So building fails at the first bullet that is more
than one level deeper than the bullet before it, and otherwise nests the bullets by
their depth.
-/

import Mathlib.Data.List.Infix
import OutlineDiagram.Graph.Build
import OutlineDiagram.Proofs.Forest.Rightmost

namespace OutlineDiagram

/-! ### The graph of a list of bullets -/

/-- The first bullet that is deeper than allowed, where each bullet allows one level more than
its own depth to the next. -/
def firstBadIndent? : (allowed : Int) → (bullets : List Line) → Option StructureError
  | _, [] => none
  | allowed, bullet :: rest =>
    if allowed < bullet.depth then some ⟨bullet.index, bullet.depth, allowed⟩
    else firstBadIndent? (bullet.depth + 1) rest

/-- The first bullet that is too deep is found by places and depths alone. -/
theorem firstBadIndent?_congr {bullets others : List Line}
    (same : bullets.map (fun bullet => (bullet.index, bullet.depth)) =
      others.map fun bullet => (bullet.index, bullet.depth)) (allowed : Int) :
    firstBadIndent? allowed bullets = firstBadIndent? allowed others := by
  induction bullets generalizing others allowed with
  | nil => rw [List.map_eq_nil_iff.mp same.symm]
  | cons bullet rest inductionHypothesis =>
    cases others with
    | nil => exact absurd same (List.cons_ne_nil _ _)
    | cons other further =>
      rw [List.map_cons, List.map_cons, List.cons.injEq, Prod.mk.injEq] at same
      obtain ⟨⟨index, depth⟩, restSame⟩ := same
      rw [firstBadIndent?, firstBadIndent?, index, depth, inductionHypothesis restSame]

/-- The ids of the bullets with a given visibility. -/
def markedIds (visibility : Visibility) (bullets : List Line) : IdSet :=
  IdSet.ofList ((bullets.filter fun bullet => bullet.visibility == visibility).map Line.id)

/-- The bullets whose own id an earlier bullet declared. The list before the bullets holds the
ids declared so far. -/
def redeclarations : (declared : List String) → (bullets : List Line) → List (String × Line)
  | _, [] => []
  | declared, bullet :: rest =>
    match bullet.ownId? with
    | none => redeclarations declared rest
    | some id =>
      if declared.contains id then (id, bullet) :: redeclarations declared rest
      else redeclarations (id :: declared) rest

/-- The graph of well-indented bullets. -/
def Graph.ofBullets (bullets : List Line) : Graph where
  forest := (Forest.nest Line.depth bullets).map Node.ofLine
  links := LinkGraph.addEdges {} (bullets.flatMap authoredLinks)
  foldIds := markedIds .fold bullets
  hideIds := markedIds .hide bullets
  duplicateIds := IdSet.ofList ((redeclarations [] bullets).map Prod.fst)

theorem bulletsOf_cons (line : Line) (rest : List Line) :
    bulletsOf (line :: rest) =
      if line.isBullet = true then line :: bulletsOf rest else bulletsOf rest := by
  rw [bulletsOf, List.filter_cons]
  rfl

/-! ### One bullet -/

namespace Building

variable {building next : Building} {earlier : List Line} {bullet : Line}

/-- The graph after further bullets, where the forest is that of all bullets. -/
def grownBy (building : Building) (earlier bullets : List Line) : Graph where
  forest := (Forest.nest Line.depth (earlier ++ bullets)).map Node.ofLine
  links := building.links.addEdges (bullets.flatMap authoredLinks)
  foldIds := ((bullets.filter fun bullet => bullet.visibility == .fold).map Line.id).foldl
    IdSet.insert building.foldIds
  hideIds := ((bullets.filter fun bullet => bullet.visibility == .hide).map Line.id).foldl
    IdSet.insert building.hideIds
  duplicateIds := ((redeclarations building.declared bullets).map Prod.fst).foldl IdSet.insert
    building.duplicateIds

/-- The bullets so far are nested by depth, each at the level of its depth, and the addresses that
can receive the next bullet are the initial parts of one that leads along the last trees. -/
structure Nests (building : Building) (earlier : List Line) : Prop where
  /-- The forest is that of the bullets so far. -/
  forest_eq : building.forest = (Forest.nest Line.depth earlier).map Node.ofLine
  /-- Levels are depths. -/
  levelled : (Forest.nest Line.depth earlier).IsLevelled Line.depth 0
  /-- The parents are those on the way along the last trees. -/
  parents_eq : ∃ address, Forest.IsRightmost (Forest.nest Line.depth earlier) address ∧
    building.parents = address.inits

theorem nests_start : Nests {} [] where
  forest_eq := rfl
  levelled := trivial
  parents_eq := ⟨[], .top _, rfl⟩

/-- Each of the parents leads along the last trees, over as many levels as there are parents before
it, and the parents up to it are the initial parts of it. -/
theorem Nests.exists_parent (nests : building.Nests earlier) {place : Nat}
    (bound : place < building.parents.length) :
    ∃ parent, Forest.IsRightmost (Forest.nest Line.depth earlier) parent ∧ parent.length = place ∧
      building.parents[place] = parent ∧ building.parents.take (place + 1) = parent.inits := by
  obtain ⟨last, rightmost, parents⟩ := nests.parents_eq
  refine ⟨last.take place, rightmost.take place, ?_, ?_, ?_⟩
  · rw [parents, List.length_inits] at bound
    rw [List.length_take]
    omega
  · simp only [parents, List.getElem_inits]
  · rw [parents, List.take_inits]

/-- A bullet that finds its parent is nested as its depth says, and can receive the next bullet. -/
theorem Nests.put (nests : building.Nests earlier) (isBullet : bullet.isBullet = true)
    (bound : bullet.depth.toNat < building.parents.length) :
    (building.put bullet bullet.depth.toNat bound).Nests (earlier ++ [bullet]) ∧
      (building.put bullet bullet.depth.toNat bound).maxDepth = bullet.depth + 1 := by
  obtain ⟨parent, rightmost, levels, found, upTo⟩ := nests.exists_parent bound
  have nonneg := depth_nonneg_of_isBullet isBullet
  have level : bullet.depth = 0 + (parent.length : Int) := by omega
  have grown : (Forest.nest Line.depth earlier).addAt bullet parent =
      Forest.nest Line.depth (earlier ++ [bullet]) := by
    rw [Forest.nest_append_singleton, rightmost.addAt_eq_attach nests.levelled level]
  have address : building.forest.nextAddress parent =
      (Forest.nest Line.depth earlier).nextAddress parent := by
    rw [nests.forest_eq, Forest.nextAddress_map]
  have parents : (building.put bullet bullet.depth.toNat bound).parents =
      ((Forest.nest Line.depth earlier).nextAddress parent).inits := by
    rw [Building.put, found, upTo, address, Forest.nextAddress, List.inits_append]
    rfl
  refine ⟨⟨?_, ?_, _, ?_, parents⟩, ?_⟩
  · rw [Building.put, found, nests.forest_eq, Forest.addAt_map, grown]
  · rw [← grown]
    exact Forest.isLevelled_addAt nests.levelled level
  · rw [← grown]
    exact rightmost.nextAddress bullet
  · rw [maxDepth, parents, List.length_inits, Forest.nextAddress, List.length_append,
      List.length_singleton]
    omega

/-! ### What is noted -/

/-- Marking notes the id of a folded or hidden bullet. -/
theorem mark_eq (building : Building) (bullet : Line) :
    building.mark bullet =
      { building with
        foldIds :=
          if bullet.visibility == .fold then building.foldIds.insert bullet.id
          else building.foldIds
        hideIds :=
          if bullet.visibility == .hide then building.hideIds.insert bullet.id
          else building.hideIds } := by
  rw [mark]
  cases bullet.visibility <;> rfl

/-- Noting a bullet leaves the forest and the parents, and declares, links and marks its ids. -/
theorem note_eq (building : Building) (bullet : Line) :
    building.note bullet =
      { building with
        links := building.links.addEdges (authoredLinks bullet)
        foldIds :=
          if bullet.visibility == .fold then building.foldIds.insert bullet.id
          else building.foldIds
        hideIds :=
          if bullet.visibility == .hide then building.hideIds.insert bullet.id
          else building.hideIds
        duplicateIds := (building.declare bullet).duplicateIds
        declared := (building.declare bullet).declared
        events := (building.declare bullet).events } := by
  rw [note, mark_eq, connect, declare]
  cases bullet.ownId? with
  | none => rfl
  | some id =>
    dsimp only
    cases building.declared.contains id <;> rfl

theorem maxDepth_note : (building.note bullet).maxDepth = building.maxDepth := by
  rw [note_eq, maxDepth, maxDepth]

theorem Nests.note (nests : building.Nests earlier) : (building.note bullet).Nests earlier := by
  rw [note_eq]
  exact ⟨nests.forest_eq, nests.levelled, nests.parents_eq⟩

/-- Declaring one bullet and then others finds the ids that are declared again among all. -/
theorem duplicateIds_declare (bullets : List Line) :
    ((redeclarations (building.declare bullet).declared bullets).map Prod.fst).foldl IdSet.insert
        (building.declare bullet).duplicateIds =
      ((redeclarations building.declared (bullet :: bullets)).map Prod.fst).foldl IdSet.insert
        building.duplicateIds := by
  rw [redeclarations, declare]
  cases bullet.ownId? with
  | none => rfl
  | some id =>
    dsimp only
    cases building.declared.contains id <;> rfl

theorem foldl_insert_filter (visibility : Visibility) (ids : IdSet) (bullets : List Line) :
    (((bullet :: bullets).filter fun other => other.visibility == visibility).map Line.id).foldl
        IdSet.insert ids =
      ((bullets.filter fun other => other.visibility == visibility).map Line.id).foldl IdSet.insert
        (if bullet.visibility == visibility then ids.insert bullet.id else ids) := by
  rw [List.filter_cons]
  split <;> rfl

/-- Noting a bullet first comes to the same as growing by it and the bullets after it. -/
theorem grownBy_note (bullets : List Line) :
    (building.note bullet).grownBy (earlier ++ [bullet]) bullets =
      building.grownBy earlier (bullet :: bullets) := by
  have links : (building.links.addEdges (authoredLinks bullet)).addEdges
      (bullets.flatMap authoredLinks) =
        building.links.addEdges ((bullet :: bullets).flatMap authoredLinks) := by
    rw [List.flatMap_cons, LinkGraph.addEdges, LinkGraph.addEdges, LinkGraph.addEdges,
      List.foldl_append]
  rw [note_eq, grownBy, grownBy, List.append_assoc, List.singleton_append, links,
    foldl_insert_filter, foldl_insert_filter, duplicateIds_declare]

/-! ### All bullets -/

theorem snd_run {building : Building} {earlier : List Line} (nests : building.Nests earlier)
    (lines : List Line) :
    (building.run lines).2 =
      match firstBadIndent? building.maxDepth (bulletsOf lines) with
      | some error => .error error
      | none => .ok (building.grownBy earlier (bulletsOf lines)) := by
  induction lines generalizing building earlier with
  | nil =>
    show Except.ok building.toGraph = .ok (building.grownBy earlier [])
    rw [grownBy, List.append_nil, ← nests.forest_eq]
    rfl
  | cons line rest inductionHypothesis =>
    rw [run, step, bulletsOf_cons]
    by_cases isBullet : line.isBullet = true
    · rw [dif_pos isBullet, if_pos isBullet, firstBadIndent?]
      by_cases deep : building.maxDepth < line.depth
      · rw [dif_pos deep, if_pos deep]
      · have bound := toNat_lt_length_parents isBullet deep
        obtain ⟨nested, allowed⟩ := nests.put isBullet bound
        rw [dif_neg deep, if_neg deep]
        show ((Building.note _ line).run rest).2 = _
        rw [inductionHypothesis nested.note, maxDepth_note, allowed, grownBy_note]
        rfl
    · rw [dif_neg isBullet, if_neg isBullet]
      exact inductionHypothesis nests

end Building

namespace Graph

/-- Building fails at the first bullet that is deeper than allowed, and nests the bullets by their
depth if there is none. -/
theorem build_eq (lines : List Line) :
    build lines =
      match firstBadIndent? 0 (bulletsOf lines) with
      | some error => .error error
      | none => .ok (ofBullets (bulletsOf lines)) :=
  Building.snd_run Building.nests_start lines

end Graph

end OutlineDiagram
