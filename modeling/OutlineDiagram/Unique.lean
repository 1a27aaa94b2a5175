/-
This file drops the members of a list that repeat earlier ones. Of members that
are the same, the first one stays, in its place.
-/

namespace OutlineDiagram

variable {α : Type}

/-- The list without the members that are the same as an earlier one. -/
def uniqueBy (same : α → α → Bool) : List α → List α
  | [] => []
  | first :: rest => first :: (uniqueBy same rest).filter fun member => !same member first

/-- Nothing new appears. -/
theorem mem_of_mem_uniqueBy {same : α → α → Bool} {members : List α} {member : α}
    (found : member ∈ uniqueBy same members) : member ∈ members := by
  induction members with
  | nil => exact found
  | cons first rest inductionHypothesis =>
    rcases List.mem_cons.mp found with rfl | later
    · exact List.mem_cons_self
    · exact List.mem_cons_of_mem _ (inductionHypothesis (List.mem_filter.mp later).1)

/-- No two members that remain are the same. -/
theorem pairwise_uniqueBy {same : α → α → Bool} (members : List α) :
    (uniqueBy same members).Pairwise fun earlier later => same later earlier = false := by
  induction members with
  | nil => exact List.Pairwise.nil
  | cons first rest inductionHypothesis =>
    refine List.pairwise_cons.mpr ⟨fun member found => ?_, inductionHypothesis.filter _⟩
    simpa using (List.mem_filter.mp found).2

end OutlineDiagram
