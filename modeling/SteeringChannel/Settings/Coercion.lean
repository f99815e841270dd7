import SteeringChannel.Number.Decimal
import SteeringChannel.Text.Blank
import SteeringChannel.Value

/-!
Turning loosely typed values into the types of the settings. Texts are read leniently: blanks,
a plus sign, leading zeros, zero decimals and single underscores are accepted in numbers.
-/

namespace SteeringChannel.Settings

inductive Fault where
  | notText
  | notWhole
  | unreadableWhole
  | wholeTooLong
  | fractional
  | notFinite
  | notNumber
  | unreadableNumber
  | notFlag
  | unreadableFlag
  | below (bound : Int)
  | above (bound : Int)
  | unknownName
  deriving DecidableEq, Repr

namespace Fault

def code : Fault → String
  | notText => "string_type"
  | notWhole => "int_type"
  | unreadableWhole => "int_parsing"
  | wholeTooLong => "int_parsing_size"
  | fractional => "int_from_float"
  | notFinite => "finite_number"
  | notNumber => "float_type"
  | unreadableNumber => "float_parsing"
  | notFlag => "bool_type"
  | unreadableFlag => "bool_parsing"
  | below _ => "greater_than_equal"
  | above _ => "less_than_equal"
  | unknownName => "extra_forbidden"

def message : Fault → String
  | notText => "Input should be a valid string"
  | notWhole => "Input should be a valid integer"
  | unreadableWhole => "Input should be a valid integer, unable to parse string as an integer"
  | wholeTooLong => "Unable to parse input string as an integer, exceeded maximum size"
  | fractional => "Input should be a valid integer, got a number with a fractional part"
  | notFinite => "Input should be a finite number"
  | notNumber => "Input should be a valid number"
  | unreadableNumber => "Input should be a valid number, unable to parse string as a number"
  | notFlag => "Input should be a valid boolean"
  | unreadableFlag => "Input should be a valid boolean, unable to interpret input"
  | below bound => "Input should be greater than or equal to " ++ toString bound
  | above bound => "Input should be less than or equal to " ++ toString bound
  | unknownName => "Extra inputs are not permitted"

end Fault

def trim (text : List Char) : List Char := Text.trimBoth Text.isWhiteSpace text

def digitsValue (digits : List Char) : Nat :=
  digits.foldl (fun total digit => 10 * total + (digit.toNat - 48)) 0

def wholeLimit : Nat := 4300

def readStrictUnsigned (text : List Char) : Except Fault Nat :=
  let digits := text.takeWhile Char.isDigit
  if digits.isEmpty || (digits.head? == some '0' && 1 < digits.length) then
    .error .unreadableWhole
  else if wholeLimit < digits.length then .error .wholeTooLong
  else if digits.length < text.length then .error .unreadableWhole
  else .ok (digitsValue digits)

def readStrict : List Char → Except Fault Int
  | '-' :: rest => (readStrictUnsigned rest).map fun value => -(value : Int)
  | text => (readStrictUnsigned text).map fun value => (value : Int)

def dropPlus : List Char → Option (List Char)
  | '+' :: '-' :: _ => none
  | '+' :: rest => some rest
  | text => some text

/-- What follows the zeros and underscores after a leading zero; the last zero is kept before a
point and at the end. -/
def afterZeros (last : Char) : List Char → Option (List Char)
  | [] => some [last]
  | letter :: rest =>
      if letter = '0' || letter = '_' then afterZeros letter rest
      else if letter.isDigit then some (letter :: rest)
      else if letter = '.' then some (last :: letter :: rest)
      else none

def dropLeadingZeros : List Char → Option (List Char)
  | [] => none
  | letter :: rest =>
      if letter = '0' then afterZeros letter rest
      else if letter.isDigit || letter = '-' then some (letter :: rest)
      else none

def dropZeroDecimals (text : List Char) : List Char :=
  match text.dropWhile (· != '.') with
  | _ :: decimals =>
      if !decimals.isEmpty && decimals.all (· == '0') then text.takeWhile (· != '.') else text
  | [] => text

def hasDoubleUnderscore : List Char → Bool
  | '_' :: '_' :: _ => true
  | _ :: rest => hasDoubleUnderscore rest
  | [] => false

def dropUnderscores (text : List Char) : Option (List Char) :=
  if text.head? == some '_' || text.getLast? == some '_' || hasDoubleUnderscore text then none
  else some (text.filter (· != '_'))

def cleanWhole (text : List Char) : Option (List Char) := do
  let text ← dropPlus (trim text)
  let text ← dropLeadingZeros text
  dropUnderscores (dropZeroDecimals text)

def readWhole (text : List Char) : Except Fault Int :=
  match readStrict text with
  | .ok value => .ok value
  | .error .wholeTooLong => .error .wholeTooLong
  | .error _ =>
      match cleanWhole text with
      | some cleaned => readStrict cleaned
      | none => .error .unreadableWhole

def lower (text : List Char) : List Char := text.map Char.toLower

def readPower : List Char → Option Int
  | [] => some 0
  | mark :: rest =>
      if mark = 'e' || mark = 'E' then
        let (negative, digits) :=
          match rest with
          | '-' :: digits => (true, digits)
          | '+' :: digits => (false, digits)
          | digits => (false, digits)
        if digits.isEmpty || !digits.all Char.isDigit then none
        else
          let power : Int := digitsValue digits
          some (if negative then -power else power)
      else none

def readUnsignedNumber (negative : Bool) (text : List Char) : Option Binary64 :=
  if lower text = "inf".toList || lower text = "infinity".toList then some (.infinite negative)
  else if lower text = "nan".toList then some .nan
  else
    let whole := text.takeWhile Char.isDigit
    let rest := text.dropWhile Char.isDigit
    let (places, rest) :=
      match rest with
      | '.' :: more => (more.takeWhile Char.isDigit, more.dropWhile Char.isDigit)
      | more => ([], more)
    if whole.isEmpty && places.isEmpty then none
    else (readPower rest).map fun power =>
      Binary64.ofDecimal negative (digitsValue (whole ++ places)) (power - places.length)

def readPlainNumber : List Char → Option Binary64
  | '-' :: rest => readUnsignedNumber true rest
  | '+' :: rest => readUnsignedNumber false rest
  | text => readUnsignedNumber false text

def readNumber (text : List Char) : Except Fault Binary64 :=
  match readPlainNumber (trim text) with
  | some value => .ok value
  | none =>
      match (dropUnderscores text).bind readPlainNumber with
      | some value => .ok value
      | none => .error .unreadableNumber

def readFlag (text : List Char) : Except Fault Bool :=
  let text := String.ofList (lower text)
  if ["0", "f", "n", "no", "off", "false"].contains text then .ok false
  else if ["1", "t", "y", "on", "yes", "true"].contains text then .ok true
  else .error .unreadableFlag

def wordBound : Int := twoTo 63

def isWord (value : Int) : Bool := -wordBound ≤ value && value < wordBound

def asText : Value → Except Fault String
  | .text value => .ok value
  | _ => .error .notText

def asWhole : Value → Except Fault Int
  | .whole value => .ok value
  | .flag value => .ok (if value then 1 else 0)
  | .text value => readWhole value.toList
  | .real (.finite negative significand exponent) =>
      match (Binary64.finite negative significand exponent).toInt? with
      | some value => if isWord value then .ok value else .error .wholeTooLong
      | none => .error .fractional
  | .real _ => .error .notFinite
  | _ => .error .notWhole

def asNumber : Value → Except Fault Binary64
  | .real value => .ok value
  | .whole value => .ok (Binary64.ofInt value)
  | .flag value => .ok (Binary64.ofInt (if value then 1 else 0))
  | .text value => readNumber value.toList
  | _ => .error .notNumber

def flagOfInt (value : Int) : Except Fault Bool :=
  if value = 0 then .ok false
  else if value = 1 then .ok true
  else if isWord value then .error .unreadableFlag
  else .error .notFlag

def asFlag : Value → Except Fault Bool
  | .flag value => .ok value
  | .whole value => flagOfInt value
  | .real value =>
      match value.toInt? with
      | some whole => flagOfInt whole
      | none => .error .notFlag
  | .text value => readFlag value.toList
  | _ => .error .notFlag

def asDuration (value : Value) : Except Fault Binary64 :=
  match asNumber value with
  | .ok number => if number.isNonnegative then .ok number else .error (.below 0)
  | .error fault => .error fault

def asByte (value : Value) : Except Fault Int :=
  match asWhole value with
  | .ok whole =>
      if whole < 0 then .error (.below 0)
      else if 255 < whole then .error (.above 255)
      else .ok whole
  | .error fault => .error fault

end SteeringChannel.Settings
