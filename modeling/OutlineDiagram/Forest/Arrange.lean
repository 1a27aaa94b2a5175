/-
This file moves chosen members of a list to the front of the places that members
of their class hold. Members of other classes stay where they are, and within a
class both groups keep their order.
-/

import OutlineDiagram.Forest.Basic

namespace OutlineDiagram

variable {α : Type}

/-- The list with the members of a class replaced, in order, by given ones. -/
def refill (inClass : α → Bool) : List α → List α → List α
  | [], _ => []
  | first :: rest, [] => first :: rest
  | first :: rest, given :: others =>
    if inClass first then given :: refill inClass rest others
    else first :: refill inClass rest (given :: others)

/-- The list with the members of a class rearranged among their places, the preferred ones
before the others. -/
def preferWithin (inClass preferred : α → Bool) (members : List α) : List α :=
  let chosen := members.filter inClass
  refill inClass members (chosen.filter preferred ++ chosen.filter fun member => !preferred member)

/-- A list refilled with its own members of the class is unchanged. -/
theorem refill_filter (inClass : α → Bool) (members : List α) :
    refill inClass members (members.filter inClass) = members := by
  induction members with
  | nil => rfl
  | cons first rest inductionHypothesis =>
    cases chosen : inClass first with
    | true => simp [refill, chosen, inductionHypothesis]
    | false =>
      rw [List.filter_cons_of_neg (by simp [chosen])]
      cases others : rest.filter inClass with
      | nil => rfl
      | cons given later =>
        rw [refill, if_neg (by simp [chosen]), ← others, inductionHypothesis]

end OutlineDiagram
