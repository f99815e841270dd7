import SteeringChannel.Number.Binary64

/-!
Decimal forms of binary floating-point numbers: the fewest digits that read back, a fixed number
of places, and scientific notation.
-/

namespace SteeringChannel.Binary64

/-- Digits of a decimal expansion; the point stands before the digit of `order - 1`, so the value
is `digits` times ten to the power `order - digits.length + 1`. -/
structure Expansion where
  digits : List Char
  order : Int
  deriving DecidableEq, Repr

def leadingOrder (numerator denominator : Nat) : Int :=
  if denominator ≤ numerator then
    ((Nat.toDigits 10 (numerator / denominator)).length : Int) - 1
  else
    let length := (Nat.toDigits 10 (denominator / numerator)).length
    if denominator ≤ numerator * tenTo (length - 1) then -((length - 1 : Nat) : Int)
    else -(length : Int)

def overTen (numerator denominator : Nat) (power : Int) : Nat × Nat :=
  if power < 0 then (numerator * tenTo power.natAbs, denominator)
  else (numerator, denominator * tenTo power.natAbs)

def expansionOf (coefficient : Nat) (power : Int) : Expansion :=
  let digits := Nat.toDigits 10 coefficient
  ⟨digits, power + digits.length - 1⟩

/-- The two neighbours of a value on a decimal grid that read back as it, the nearer first. -/
def gridHits (value : Binary64) (numerator denominator : Nat) (power : Int) : List Nat :=
  let (top, bottom) := overTen numerator denominator power
  let below := top / bottom
  let nearest := roundQuotient top bottom
  let other := if nearest = below then below + 1 else below
  [nearest, other].filter fun candidate =>
    candidate != 0 && ofDecimal false candidate power == value

def shortestFrom (value : Binary64) (numerator denominator : Nat) (order : Int) :
    Nat → Nat → Expansion
  | 0, places => expansionOf
      (let (top, bottom) := overTen numerator denominator (order - places + 1)
       roundQuotient top bottom) (order - places + 1)
  | fuel + 1, places =>
      match gridHits value numerator denominator (order - places + 1) with
      | candidate :: _ => expansionOf candidate (order - places + 1)
      | [] => shortestFrom value numerator denominator order fuel (places + 1)

def dropZeros (digits : List Char) : List Char :=
  match (digits.reverse.dropWhile (· == '0')).reverse with
  | [] => ['0']
  | kept => kept

def shortest (significand : Nat) (exponent : Int) : Expansion :=
  let (numerator, denominator) := magnitude significand exponent
  let found := shortestFrom (finite false significand exponent) numerator denominator
    (leadingOrder numerator denominator) 17 1
  ⟨dropZeros found.digits, found.order⟩

def signText (negative : Bool) : String := if negative then "-" else ""

def pad2 (value : Nat) : String :=
  if value < 10 then "0" ++ toString value else toString value

def exponentText (order : Int) : String :=
  "e" ++ (if order < 0 then "-" else "+") ++ pad2 order.natAbs

def positional (expansion : Expansion) : String :=
  if expansion.order < 0 then
    "0." ++ String.ofList (List.replicate (expansion.order.natAbs - 1) '0' ++ expansion.digits)
  else
    let whole := expansion.order.natAbs + 1
    let filled := expansion.digits ++ List.replicate (whole - expansion.digits.length) '0'
    String.ofList (filled.take whole) ++ "." ++
      String.ofList (match filled.drop whole with | [] => ['0'] | rest => rest)

def scientific (expansion : Expansion) : String :=
  match expansion.digits with
  | [] => "0" ++ exponentText expansion.order
  | [digit] => String.ofList [digit] ++ exponentText expansion.order
  | digit :: rest =>
      String.ofList [digit] ++ "." ++ String.ofList rest ++ exponentText expansion.order

/-- Positional from 0.0001 up to sixteen whole digits, and always with a point; scientific
outside, with at least two digits of exponent. -/
def text : Binary64 → String
  | nan => "nan"
  | infinite negative => signText negative ++ "inf"
  | finite negative significand exponent =>
      if significand = 0 then signText negative ++ "0.0"
      else
        let expansion := shortest significand exponent
        signText negative ++
          if -4 ≤ expansion.order && expansion.order < 16 then positional expansion
          else scientific expansion

def fixedMagnitude (significand : Nat) (exponent : Int) (places : Nat) : String :=
  let (numerator, denominator) := magnitude significand exponent
  let digits := Nat.toDigits 10 (roundQuotient (numerator * tenTo places) denominator)
  let filled := List.replicate (places + 1 - digits.length) '0' ++ digits
  let whole := filled.length - places
  String.ofList (filled.take whole) ++
    if places = 0 then "" else "." ++ String.ofList (filled.drop whole)

def roundedTo (significand : Nat) (exponent : Int) (count : Nat) : Expansion :=
  if significand = 0 then ⟨List.replicate count '0', 0⟩
  else
    let (numerator, denominator) := magnitude significand exponent
    let order := leadingOrder numerator denominator
    let (top, bottom) := overTen numerator denominator (order - count + 1)
    let digits := Nat.toDigits 10 (roundQuotient top bottom)
    ⟨digits.take count, order + digits.length - count⟩

def unsignedSpecial : Binary64 → String
  | nan => "nan"
  | _ => "inf"

def fixed (places : Nat) : Binary64 → String
  | finite negative significand exponent =>
      signText negative ++ fixedMagnitude significand exponent places
  | other => signText other.isNegative ++ unsignedSpecial other

def toRat? : Binary64 → Option Rat
  | finite negative significand exponent =>
      if significand = 0 then some 0
      else
        let expansion := shortest significand exponent
        let coefficient : Nat := expansion.digits.foldl
          (fun total digit => 10 * total + (digit.toNat - 48)) 0
        let power : Int := expansion.order - expansion.digits.length + 1
        let value : Rat :=
          if power < 0 then mkRat coefficient (tenTo power.natAbs)
          else mkRat (coefficient * tenTo power.natAbs : Nat) 1
        some (if negative then -value else value)
  | _ => none

end SteeringChannel.Binary64
