import SteeringChannel.Text.Digit

/-!
Whole numbers as people type them: a sign, then digits of any script, with single underscores
between two digits.
-/

namespace SteeringChannel.Whole

def digitLimit : Nat := 4300

def readDigits : List Char → Option (List Nat)
  | [] => none
  | [letter] => (Text.decimalDigit? letter).map fun digit => [digit]
  | letter :: '_' :: rest =>
      match Text.decimalDigit? letter, readDigits rest with
      | some digit, some digits => some (digit :: digits)
      | _, _ => none
  | letter :: next :: rest =>
      match Text.decimalDigit? letter, readDigits (next :: rest) with
      | some digit, some digits => some (digit :: digits)
      | _, _ => none

def valueOf (digits : List Nat) : Nat :=
  digits.foldl (fun total digit => 10 * total + digit) 0

def readUnsigned (text : List Char) : Option Nat :=
  match readDigits text with
  | some digits => if digits.length ≤ digitLimit then some (valueOf digits) else none
  | none => none

def read : List Char → Option Int
  | '+' :: rest => (readUnsigned rest).map fun value => (value : Int)
  | '-' :: rest => (readUnsigned rest).map fun value => -(value : Int)
  | text => (readUnsigned text).map fun value => (value : Int)

end SteeringChannel.Whole
