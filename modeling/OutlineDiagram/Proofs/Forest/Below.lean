/-
This file proves what lies below the values of a nested list. Below a value a walk
meets the run of deeper values right after it, and that run is the same whether it
is read in the whole list or in the part of the list that lies below some value
above: such a part ends before a value that is less deep than all of it.
-/

import Mathlib.Data.List.TakeWhile
import OutlineDiagram.Proofs.Forest.Nest

namespace OutlineDiagram.Forest

variable {α : Type} (depth : α → Int)

/-! ### Runs -/

/-- Each value with the run of deeper values right after it. -/
def withRuns : List α → List (List α × α)
  | [] => []
  | value :: rest => (rest.takeWhile (isDeeper depth (depth value)), value) :: withRuns rest

/-- A run does not reach beyond values that pass when the next one fails. -/
theorem takeWhile_append_of_head?_fails {passes : α → Bool} (run : List α) {later : List α}
    (stops : ∀ next, later.head? = some next → passes next = false) :
    (run ++ later).takeWhile passes = run.takeWhile passes := by
  induction run with
  | nil =>
    cases later with
    | nil => rfl
    | cons next others => exact List.takeWhile_cons_of_neg (by simp [stops next rfl])
  | cons value rest inductionHypothesis =>
    rw [List.cons_append, List.takeWhile_cons, List.takeWhile_cons, inductionHypothesis]

/-- Runs stay within a part of a list that is followed by a value less deep than all of it. -/
theorem withRuns_append {run later : List α}
    (stops : ∀ value ∈ run, ∀ next, later.head? = some next → depth next ≤ depth value) :
    withRuns depth (run ++ later) = withRuns depth run ++ withRuns depth later := by
  induction run with
  | nil => rfl
  | cons value rest inductionHypothesis =>
    rw [List.forall_mem_cons] at stops
    rw [List.cons_append, withRuns, withRuns, inductionHypothesis stops.2, List.cons_append,
      takeWhile_append_of_head?_fails]
    intro next head
    simpa [isDeeper] using stops.1 next head

/-! ### Walks -/

/-- Below each value of a nested list a walk meets the run of deeper values right after it. -/
theorem map_below_visitsFrom_nest (level : Nat) (values : List α) :
    ((nest depth values).visitsFrom level).map (fun visit => (visit.below.toList, visit.value)) =
      withRuns depth values := by
  induction known : values.length using Nat.strongRecOn generalizing values level with
  | _ length inductionHypothesis =>
    cases values with
    | nil => rfl
    | cons value rest =>
      subst known
      have below := inductionHypothesis _ (Nat.lt_succ_of_le
        (List.takeWhile_sublist (isDeeper depth (depth value))).length_le) (level + 1) _ rfl
      have after := inductionHypothesis _ (Nat.lt_succ_of_le
        (List.dropWhile_sublist (isDeeper depth (depth value))).length_le) level _ rfl
      have stops : ∀ deep ∈ rest.takeWhile (isDeeper depth (depth value)), ∀ next,
          (rest.dropWhile (isDeeper depth (depth value))).head? = some next →
            depth next ≤ depth deep := by
        intro deep inside next head
        have isDeep := List.mem_takeWhile_imp inside
        have stopped := List.head?_dropWhile_not (isDeeper depth (depth value)) rest
        rw [head] at stopped
        simp only [isDeeper, decide_eq_true_eq, decide_eq_false_iff_not] at isDeep stopped
        omega
      rw [nest_cons, visitsFrom, List.map_cons, List.map_append, below, after, toList_nest,
        ← withRuns_append depth stops, List.takeWhile_append_dropWhile, withRuns]

end OutlineDiagram.Forest
