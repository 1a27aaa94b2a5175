/-
This file proves that the bullets above a bullet, found by looking back for smaller
depths, are the path to it in the forest into which depth nests the bullets. A
chain looks back over all earlier bullets while a path is made from the top, and
the two meet because the run below a bullet holds deeper bullets only.
-/

import Mathlib.Data.List.TakeWhile
import OutlineDiagram.Document.Navigate
import OutlineDiagram.Proofs.Forest.Nest
import OutlineDiagram.Proofs.Forest.Path

namespace OutlineDiagram

/-! ### Chains -/

theorem bulletsOf_bulletsOf (lines : List Line) :
    bulletsOf (bulletsOf lines) = bulletsOf lines := by
  rw [bulletsOf, bulletsOf, List.filter_filter]
  simp only [Bool.and_self]

theorem isBullet_of_mem_bulletsOf {lines : List Line} {line : Line}
    (member : line ∈ bulletsOf lines) : line.isBullet = true :=
  (List.mem_filter.mp member).2

theorem shallowerChain_cons_of_lt {depth : Int} {line : Line} (bullet : line.isBullet = true)
    (shallower : line.depth < depth) (before : List Line) :
    shallowerChain depth (line :: before) = line :: shallowerChain line.depth before := by
  rw [shallowerChain, if_pos (by simp [bullet, shallower])]

theorem shallowerChain_cons_of_le {depth : Int} {line : Line} (deeper : depth ≤ line.depth)
    (before : List Line) : shallowerChain depth (line :: before) = shallowerChain depth before := by
  rw [shallowerChain, if_neg (by simp [Int.not_lt.mpr deeper])]

/-- A chain begins with the nearest shallower bullet. -/
theorem head?_shallowerChain {depth : Int} {before : List Line}
    (valid : ∀ line ∈ before, line.isBullet = true) :
    (shallowerChain depth before).head? = before.find? fun other => other.depth < depth := by
  induction before with
  | nil => rfl
  | cons line rest inductionHypothesis =>
    have bullet := valid line List.mem_cons_self
    rw [List.find?_cons]
    by_cases shallower : line.depth < depth
    · rw [shallowerChain_cons_of_lt bullet shallower, decide_eq_true shallower]
      rfl
    · rw [shallowerChain_cons_of_le (Int.not_lt.mp shallower), decide_eq_false shallower]
      exact inductionHypothesis fun other member => valid other (List.mem_cons_of_mem _ member)

/-- Lines that are not less deep are passed over. -/
theorem shallowerChain_append_of_le {depth : Int} {run : List Line}
    (deeper : ∀ line ∈ run, depth ≤ line.depth) (before : List Line) :
    shallowerChain depth (run ++ before) = shallowerChain depth before := by
  induction run with
  | nil => rfl
  | cons line rest inductionHypothesis =>
    rw [List.cons_append, shallowerChain_cons_of_le (deeper line List.mem_cons_self)]
    exact inductionHypothesis fun other member => deeper other (List.mem_cons_of_mem _ member)

/-- A bullet and the deeper run after it are passed over from a depth that is no greater. -/
theorem shallowerChain_run {depth : Int} {first : Line} {run : List Line}
    (deeper : ∀ line ∈ run, first.depth < line.depth) (upper : depth ≤ first.depth)
    (before : List Line) :
    shallowerChain depth (run.reverse ++ first :: before) = shallowerChain depth before := by
  rw [shallowerChain_append_of_le, shallowerChain_cons_of_le upper]
  intro line member
  have lineDeeper := deeper line (List.mem_reverse.mp member)
  omega

theorem shallowerChain_sublist (depth : Int) (before : List Line) :
    (shallowerChain depth before).Sublist before := by
  induction before generalizing depth with
  | nil => exact .slnil
  | cons line rest inductionHypothesis =>
    rw [shallowerChain]
    split
    · exact (inductionHypothesis line.depth).cons_cons line
    · exact (inductionHypothesis depth).cons line

/-- Each bullet with the bullets above it, closest first. The list before the bullets holds
those that were passed already, the last one first. -/
def withChains : List Line → List Line → List (List Line × Line)
  | _, [] => []
  | before, line :: rest =>
    (shallowerChain line.depth before, line) :: withChains (line :: before) rest

theorem map_snd_withChains (before lines : List Line) :
    (withChains before lines).map Prod.snd = lines := by
  induction lines generalizing before with
  | nil => rfl
  | cons line rest inductionHypothesis =>
    rw [withChains, List.map_cons, inductionHypothesis]

theorem map_id_withChains (before lines : List Line) :
    ((withChains before lines).map fun place => place.2.id) = lines.map Line.id := by
  conv_rhs => rw [← map_snd_withChains before lines, List.map_map]
  rfl

theorem withChains_append (before run rest : List Line) :
    withChains before (run ++ rest) =
      withChains before run ++ withChains (run.reverse ++ before) rest := by
  induction run generalizing before with
  | nil => rfl
  | cons line others inductionHypothesis =>
    rw [List.cons_append, withChains, withChains, inductionHypothesis, List.reverse_cons,
      List.append_assoc]
    rfl

/-- A chain belongs to a bullet when it is found by looking back from the bullet's place. -/
theorem mem_withChains_iff {before lines chain : List Line} {line : Line} :
    (chain, line) ∈ withChains before lines ↔
      ∃ earlier later, lines = earlier ++ line :: later ∧
        chain = shallowerChain line.depth (earlier.reverse ++ before) := by
  constructor
  · intro member
    induction lines generalizing before with
    | nil => exact absurd member List.not_mem_nil
    | cons first rest inductionHypothesis =>
      rcases List.mem_cons.mp member with same | further
      · obtain ⟨rfl, rfl⟩ := Prod.mk.inj same
        exact ⟨[], rest, rfl, rfl⟩
      · obtain ⟨earlier, later, rfl, rfl⟩ := inductionHypothesis further
        refine ⟨first :: earlier, later, rfl, ?_⟩
        rw [List.reverse_cons, List.append_assoc]
        rfl
  · rintro ⟨earlier, later, rfl, rfl⟩
    rw [withChains_append]
    exact List.mem_append_right _ List.mem_cons_self

/-- The bullets of a chain come from the bullets before. -/
theorem mem_of_mem_chain {lines chain : List Line} {line above : Line}
    (member : (chain, line) ∈ withChains [] lines) (inside : above ∈ chain) : above ∈ lines := by
  obtain ⟨earlier, later, rfl, rfl⟩ := mem_withChains_iff.mp member
  rw [List.append_nil] at inside
  have found := (shallowerChain_sublist _ _).subset inside
  exact List.mem_append_left _ (List.mem_reverse.mp found)

/-! ### Paths of nested bullets -/

namespace Forest

/-- The deeper run after a bullet ends with a bullet that is not deeper. -/
theorem depth_le_of_head?_dropWhile {level : Int} {lines : List Line} {line : Line}
    (head : (lines.dropWhile (isDeeper Line.depth level)).head? = some line) :
    line.depth ≤ level := by
  have stopped := List.head?_dropWhile_not (isDeeper Line.depth level) lines
  rw [head] at stopped
  simpa [isDeeper] using stopped

/-- Nested bullets have the paths that their chains tell, when looking back from the first bullet
to any smaller depth finds just what is above all of them. -/
theorem pathsFrom_nest {before above bullets : List Line} {low : Int}
    (valid : ∀ line ∈ bullets, line.isBullet = true)
    (deeper : ∀ line ∈ bullets, low < line.depth)
    (fits : ∀ line, bullets.head? = some line → ∀ depth, low < depth → depth ≤ line.depth →
      shallowerChain depth before = above) :
    (nest Line.depth bullets).pathsFrom above = withChains before bullets := by
  induction known : bullets.length using Nat.strongRecOn
    generalizing before above bullets low with
  | _ length inductionHypothesis =>
    cases bullets with
    | nil => rfl
    | cons first rest =>
      subst known
      have firstValid := valid first List.mem_cons_self
      have firstDeeper := deeper first List.mem_cons_self
      have firstChain : shallowerChain first.depth before = above :=
        fits first rfl first.depth firstDeeper (Int.le_refl _)
      have split : rest = rest.takeWhile (isDeeper Line.depth first.depth) ++
          rest.dropWhile (isDeeper Line.depth first.depth) := List.takeWhile_append_dropWhile.symm
      have belowDeeper : ∀ line ∈ rest.takeWhile (isDeeper Line.depth first.depth),
          first.depth < line.depth := by
        intro line member
        simpa [isDeeper] using List.mem_takeWhile_imp member
      have belowPaths := inductionHypothesis _
        (Nat.lt_succ_of_le (List.takeWhile_sublist (isDeeper Line.depth first.depth)).length_le)
        (fun line member => valid line
          (List.mem_cons_of_mem _ ((List.takeWhile_sublist _).subset member)))
        belowDeeper
        (fun line _ depth lower _ => shallowerChain_cons_of_lt firstValid lower before) rfl
      have afterFits : ∀ line,
          (rest.dropWhile (isDeeper Line.depth first.depth)).head? = some line →
            ∀ depth, low < depth → depth ≤ line.depth → shallowerChain depth
              ((rest.takeWhile (isDeeper Line.depth first.depth)).reverse ++ first :: before) =
                above := by
        intro line head depth lower upper
        have noDeeper := Int.le_trans upper (depth_le_of_head?_dropWhile head)
        rw [shallowerChain_run belowDeeper noDeeper]
        exact fits first rfl depth lower noDeeper
      have afterPaths := inductionHypothesis _
        (Nat.lt_succ_of_le (List.dropWhile_sublist (isDeeper Line.depth first.depth)).length_le)
        (fun line member => valid line
          (List.mem_cons_of_mem _ ((List.dropWhile_sublist _).subset member)))
        (fun line member => deeper line
          (List.mem_cons_of_mem _ ((List.dropWhile_sublist _).subset member)))
        afterFits rfl
      rw [nest_cons, pathsFrom, withChains, firstChain, afterPaths]
      conv_rhs => rw [split, withChains_append]
      rw [← belowPaths, firstChain]

/-- Nested bullets have the paths that their chains tell. -/
theorem paths_nest {bullets : List Line} (valid : ∀ line ∈ bullets, line.isBullet = true) :
    (nest Line.depth bullets).paths = withChains [] bullets :=
  pathsFrom_nest valid
    (fun line member => by
      have nonneg := depth_nonneg_of_isBullet (valid line member)
      exact Int.lt_of_lt_of_le (by decide : (-1 : Int) < 0) nonneg)
    fun _ _ _ _ _ => rfl

end Forest

end OutlineDiagram
