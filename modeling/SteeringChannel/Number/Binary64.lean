import SteeringChannel.Number.Power

/-!
Binary floating-point numbers of 64 bits as exact values: a significand below 2^53 times a power
of two. Reading a fraction rounds to the nearest number, a tie to the even significand.
-/

namespace SteeringChannel

inductive Binary64 where
  | nan
  | infinite (negative : Bool)
  | finite (negative : Bool) (significand : Nat) (exponent : Int)
  deriving DecidableEq, Repr, Inhabited

namespace Binary64

/-- The nearest whole number to a quotient; a half goes to the even one. -/
def roundQuotient (numerator denominator : Nat) : Nat :=
  let quotient := numerator / denominator
  let doubled := 2 * (numerator % denominator)
  if doubled < denominator then quotient
  else if denominator < doubled then quotient + 1
  else quotient + quotient % 2

def scaled (numerator denominator : Nat) (exponent : Int) : Nat × Nat :=
  if exponent < 0 then (numerator * twoTo exponent.natAbs, denominator)
  else (numerator, denominator * twoTo exponent.natAbs)

def lowestExponent : Int := -1074

def highestExponent : Int := 971

def zero (negative : Bool) : Binary64 := finite negative 0 lowestExponent

def exponentOf (numerator denominator : Nat) : Int :=
  let guess : Int := (Nat.log2 numerator : Int) - (Nat.log2 denominator : Int) - 53
  let (top, bottom) := scaled numerator denominator guess
  let fitted := if twoTo 53 ≤ top / bottom then guess + 1 else guess
  max fitted lowestExponent

def ofFraction (negative : Bool) (numerator denominator : Nat) : Binary64 :=
  if numerator = 0 then zero negative
  else
    let exponent := exponentOf numerator denominator
    let (top, bottom) := scaled numerator denominator exponent
    let significand := roundQuotient top bottom
    let (significand, exponent) :=
      if significand = twoTo 53 then (twoTo 52, exponent + 1) else (significand, exponent)
    if highestExponent < exponent then infinite negative
    else finite negative significand exponent

def ofInt (value : Int) : Binary64 := ofFraction (value < 0) value.natAbs 1

/-- A whole coefficient times a power of ten. Powers far outside the range are not formed. -/
def ofDecimal (negative : Bool) (coefficient : Nat) (power : Int) : Binary64 :=
  let magnitude := power + (Nat.toDigits 10 coefficient).length
  if coefficient = 0 then zero negative
  else if 400 < magnitude then infinite negative
  else if magnitude < -400 then zero negative
  else if power < 0 then ofFraction negative coefficient (tenTo power.natAbs)
  else ofFraction negative (coefficient * tenTo power.natAbs) 1

def isNegative : Binary64 → Bool
  | nan => false
  | infinite negative => negative
  | finite negative _ _ => negative

def isZero : Binary64 → Bool
  | finite _ significand _ => significand == 0
  | _ => false

def isNonnegative : Binary64 → Bool
  | nan => false
  | infinite negative => !negative
  | finite negative significand _ => !negative || significand == 0

def magnitude (significand : Nat) (exponent : Int) : Nat × Nat :=
  if exponent < 0 then (significand, twoTo exponent.natAbs)
  else (significand * twoTo exponent.natAbs, 1)

def toInt? : Binary64 → Option Int
  | finite negative significand exponent =>
      let (top, bottom) := magnitude significand exponent
      if top % bottom = 0 then
        let whole : Int := (top / bottom : Nat)
        some (if negative then -whole else whole)
      else none
  | _ => none

def truncate? : Binary64 → Option Int
  | finite negative significand exponent =>
      let (top, bottom) := magnitude significand exponent
      let whole : Int := (top / bottom : Nat)
      some (if negative then -whole else whole)
  | _ => none

end Binary64
end SteeringChannel
