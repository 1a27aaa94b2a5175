/-
This file says how the disk keeps the time of a file. A time is kept in whole seconds
and billionths of a second, and it is given back as one floating-point number, so
that two times that are set apart need not be told apart afterwards.
-/

import OutlineDiagram.Double

namespace OutlineDiagram

/-! ### Kept times -/

/-- A time as the disk keeps it. -/
structure ClockTime where
  /-- The whole seconds, rounded down. -/
  seconds : Int
  /-- The billionths of a second on top of them. -/
  billionths : Nat
  deriving DecidableEq, Repr, Inhabited

/-- The reason why a time cannot be kept. -/
inductive ClockError where
  /-- The seconds do not fit a word of the machine. -/
  | outOfRange
  deriving DecidableEq, Repr

namespace ClockTime

/-- The number of billionths in a second. -/
def perSecond : Nat := 1000000000

/-- A time, if its seconds fit a word of the machine. -/
def checked (seconds : Int) (billionths : Nat) : Except ClockError ClockTime :=
  if -(Int.pow 2 63) ≤ seconds ∧ seconds < Int.pow 2 63 then .ok ⟨seconds, billionths⟩
  else .error .outOfRange

/-- The time of a whole number of seconds. -/
def ofSeconds (seconds : Int) : Except ClockError ClockTime := checked seconds 0

/-- The time of a number of seconds with a fraction. The billionths are worked out as a
floating-point number and then rounded down. -/
def ofDouble (isNegative : Bool) (size : Double) : Except ClockError ClockTime :=
  match size.quotient? with
  | none => .error .outOfRange
  | some (dividend, divisor) =>
    let fraction := (Double.nearest (dividend % divisor) divisor).mul (.nearest perSecond 1)
    let (part, scale) := fraction.quotient?.getD (0, 1)
    let exact : Int := if isNegative then -(part : Int) else part
    let seconds := dividend / divisor
    let whole : Int := if isNegative then -(seconds : Int) else seconds
    let billionths := exact.fdiv scale
    checked (whole + billionths.fdiv perSecond) (billionths.fmod perSecond).toNat

/-! ### Times given back -/

/-- The time as it is given back: whether it is before the start of time, and by how much it is
away from there. -/
def givenBack (time : ClockTime) : Bool × Double :=
  let seconds := Double.nearest time.seconds.natAbs 1
  let fraction := (Double.nearest 1 perSecond).mul (.nearest time.billionths 1)
  if 0 ≤ time.seconds then (false, seconds.add fraction)
  else
    let size := seconds.sub fraction
    (size != .finite 0 0, size)

end ClockTime

end OutlineDiagram
