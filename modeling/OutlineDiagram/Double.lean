/-
This file holds the floating-point numbers of 64 bits that are not negative. Such a
number is a whole number of at most 53 binary digits times a power of two, or
infinite. A result that is no such number is rounded to the nearest one, a half to
the one whose last binary digit is zero.
-/

import OutlineDiagram.Rounding

namespace OutlineDiagram

/-- A floating-point number that is not negative. -/
inductive Double where
  /-- A whole number times a power of two. -/
  | finite (mantissa : Nat) (exponent : Int)
  /-- Infinity. -/
  | infinite
  deriving DecidableEq, Repr, Inhabited

namespace Double

/-! ### Rounding -/

/-- The greatest power of two that is no larger than a quotient. -/
def binaryMagnitude (dividend divisor : Nat) : Int :=
  let guess : Int := dividend.log2 - divisor.log2
  if divisor * Nat.pow 2 guess.toNat ≤ dividend * Nat.pow 2 (-guess).toNat then guess
  else guess - 1

/-- A rounded number of units of a power of two. Each number has one form: zero has the unit one,
and no other number has more than 53 binary digits. -/
def ofUnits (mantissa : Nat) (unit : Int) : Double :=
  if mantissa = 0 then finite 0 0
  else if 1024 ≤ unit + mantissa.log2 then infinite
  else if mantissa.log2 = 53 then finite (mantissa / 2) (unit + 1)
  else finite mantissa unit

/-- The number nearest to a quotient. -/
def nearest (dividend divisor : Nat) : Double :=
  let unit := max (binaryMagnitude dividend divisor - 52) (-1074)
  ofUnits (roundQuotient (dividend * Nat.pow 2 (-unit).toNat) (divisor * Nat.pow 2 unit.toNat)) unit

/-- The number nearest to a decimal fraction: a whole number times a power of ten. -/
def nearestDecimal (digits : Nat) (exponent : Int) : Double :=
  let places : Int := digits.log2 / 3
  if digits = 0 ∨ exponent + places < -400 then finite 0 0
  else if 400 < exponent then infinite
  else nearest (digits * Nat.pow 10 exponent.toNat) (Nat.pow 10 (-exponent).toNat)

/-! ### Arithmetic -/

/-- The sum, rounded. -/
def add : Double → Double → Double
  | finite left leftUnit, finite right rightUnit =>
    let unit := min leftUnit rightUnit
    let sum :=
      left * Nat.pow 2 (leftUnit - unit).toNat + right * Nat.pow 2 (rightUnit - unit).toNat
    nearest (sum * Nat.pow 2 unit.toNat) (Nat.pow 2 (-unit).toNat)
  | _, _ => infinite

/-- The difference, rounded, from a number that is no smaller. -/
def sub : Double → Double → Double
  | finite left leftUnit, finite right rightUnit =>
    let unit := min leftUnit rightUnit
    let difference :=
      left * Nat.pow 2 (leftUnit - unit).toNat - right * Nat.pow 2 (rightUnit - unit).toNat
    nearest (difference * Nat.pow 2 unit.toNat) (Nat.pow 2 (-unit).toNat)
  | _, _ => infinite

/-- The product, rounded, of numbers that are not zero where the other one is infinite. -/
def mul : Double → Double → Double
  | finite left leftUnit, finite right rightUnit =>
    let unit := leftUnit + rightUnit
    nearest (left * right * Nat.pow 2 unit.toNat) (Nat.pow 2 (-unit).toNat)
  | _, _ => infinite

/-! ### Views -/

/-- The value as a quotient of whole numbers, where it is not infinite. -/
def quotient? : Double → Option (Nat × Nat)
  | finite mantissa exponent =>
    some (mantissa * Nat.pow 2 exponent.toNat, Nat.pow 2 (-exponent).toNat)
  | infinite => none

/-- The whole number that a number is. -/
def whole? (value : Double) : Option Nat :=
  value.quotient?.bind fun quotient =>
    if quotient.1 % quotient.2 = 0 then some (quotient.1 / quotient.2) else none

end Double

end OutlineDiagram
