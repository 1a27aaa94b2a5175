/-
This file rounds quotients of natural numbers to whole numbers. A quotient that lies
half way between two whole numbers is rounded to the even one.
-/

namespace OutlineDiagram

/-- The quotient rounded to the nearest whole number, a half to the even neighbour. -/
def roundQuotient (dividend divisor : Nat) : Nat :=
  let quotient := dividend / divisor
  let twice := 2 * (dividend % divisor)
  if twice < divisor then quotient
  else if divisor < twice then quotient + 1
  else if quotient % 2 = 0 then quotient
  else quotient + 1

/-- A quotient is rounded down by at most a half, or up by at most a half. -/
theorem roundQuotient_cases (dividend divisor : Nat) :
    roundQuotient dividend divisor = dividend / divisor ∧ 2 * (dividend % divisor) ≤ divisor ∨
      roundQuotient dividend divisor = dividend / divisor + 1 ∧
        divisor ≤ 2 * (dividend % divisor) := by
  simp only [roundQuotient]
  split
  · next below => exact Or.inl ⟨rfl, Nat.le_of_lt below⟩
  · next notBelow =>
    split
    · next above => exact Or.inr ⟨rfl, Nat.le_of_lt above⟩
    · next notAbove =>
      split
      · exact Or.inl ⟨rfl, Nat.not_lt.mp notAbove⟩
      · exact Or.inr ⟨rfl, Nat.not_lt.mp notBelow⟩

end OutlineDiagram
