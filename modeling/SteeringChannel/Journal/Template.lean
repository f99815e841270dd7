import SteeringChannel.Value

/-!
Messages with placeholders. A placeholder is a percent sign, an optional key, flags, a width, a
precision and a conversion letter; arguments are taken in order, or by key from a table.
-/

namespace SteeringChannel.Journal

inductive TemplateError where
  | incomplete
  | incompleteKey
  | unsupported (letter : Char) (index : Nat)
  | notEnough
  | notAllUsed
  | notATable
  | missingKey (key : String)
  | starNotWhole
  | notReal (letter : Char) (typeName : String)
  | notWhole (letter : Char) (typeName : String)
  | notFloat (typeName : String)
  | notALetter
  | letterOutOfRange
  | infiniteWhole
  | nanWhole
  | wholeTooLarge
  | widthTooBig
  | precisionTooBig
  | givenWidthTooBig
  | givenPrecisionTooBig
  deriving DecidableEq, Repr

def TemplateError.message : TemplateError → String
  | .incomplete => "incomplete format"
  | .incompleteKey => "incomplete format key"
  | .unsupported letter index =>
      "unsupported format character '" ++
        (if 31 < letter.toNat && letter.toNat < 127 then String.ofList [letter] else "?") ++
        "' (0x" ++ String.ofList (Nat.toDigits 16 letter.toNat) ++ ") at index " ++ toString index
  | .notEnough => "not enough arguments for format string"
  | .notAllUsed => "not all arguments converted during string formatting"
  | .notATable => "format requires a mapping"
  | .missingKey key => Text.quote key
  | .starNotWhole => "* wants int"
  | .notReal letter typeName =>
      "%" ++ String.ofList [letter] ++ " format: a real number is required, not " ++ typeName
  | .notWhole letter typeName =>
      "%" ++ String.ofList [letter] ++ " format: an integer is required, not " ++ typeName
  | .notFloat typeName => "must be real number, not " ++ typeName
  | .notALetter => "%c requires int or char"
  | .letterOutOfRange => "%c arg not in range(0x110000)"
  | .infiniteWhole => "cannot convert float infinity to integer"
  | .nanWhole => "cannot convert float NaN to integer"
  | .wholeTooLarge => "int too large to convert to float"
  | .widthTooBig => "width too big"
  | .precisionTooBig => "precision too big"
  | .givenWidthTooBig => "Python int too large to convert to C ssize_t"
  | .givenPrecisionTooBig => "Python int too large to convert to C int"

inductive Supply where
  | items (rest : List Value)
  | table (entries : List (String × Value)) (unused : Bool)
  deriving Repr

def Supply.next : Supply → Except TemplateError (Value × Supply)
  | .items [] => .error .notEnough
  | .items (item :: rest) => .ok (item, .items rest)
  | .table entries true => .ok (.table entries, .table entries false)
  | .table _ false => .error .notEnough

def Supply.lookup (key : String) : Supply → Except TemplateError Value
  | .items _ => .error .notATable
  | .table entries _ =>
      match entries.lookup key with
      | some value => .ok value
      | none => .error (.missingKey key)

structure Placeholder where
  left : Bool := false
  plus : Bool := false
  blank : Bool := false
  alternate : Bool := false
  zeros : Bool := false
  width : Nat := 0
  precision : Option Nat := none
  deriving Repr

def Placeholder.pad (place : Placeholder) (numeric : Bool) (mark : String) (body : String) :
    String :=
  let (sign, digits) :=
    if !numeric then ("", body)
    else match body.toList with
      | '-' :: rest => ("-", String.ofList rest)
      | _ => (if place.plus then "+" else if place.blank then " " else "", body)
  let filler := place.width - (sign.length + mark.length + digits.length)
  let spaces := String.ofList (List.replicate filler ' ')
  if place.left then sign ++ mark ++ digits ++ spaces
  else if numeric && place.zeros then
    sign ++ mark ++ String.ofList (List.replicate filler '0') ++ digits
  else spaces ++ sign ++ mark ++ digits

def upper (text : String) : String := String.ofList (text.toList.map Char.toUpper)

def wholeOf (letter : Char) : Value → Except TemplateError Int
  | .whole value => .ok value
  | .flag value => .ok (if value then 1 else 0)
  | .real value =>
      if letter = 'o' || letter = 'x' || letter = 'X' then .error (.notWhole letter "float")
      else match value.truncate? with
        | some whole => .ok whole
        | none => .error (if value == .nan then .nanWhole else .infiniteWhole)
  | other =>
      if letter = 'o' || letter = 'x' || letter = 'X' then
        .error (.notWhole letter other.typeName)
      else .error (.notReal letter other.typeName)

def formatWhole (place : Placeholder) (letter : Char) (value : Int) : String :=
  let base := if letter = 'o' then 8 else if letter = 'x' || letter = 'X' then 16 else 10
  let digits := Nat.toDigits base value.natAbs
  let filled := List.replicate (place.precision.getD 0 - digits.length) '0' ++ digits
  let shown := if letter = 'X' then filled.map Char.toUpper else filled
  let mark :=
    if place.alternate && base == 16 then String.ofList ['0', letter]
    else if place.alternate && base == 8 then "0o"
    else ""
  place.pad true mark (Binary64.signText (value < 0) ++ String.ofList shown)

def floatOf : Value → Except TemplateError Binary64
  | .real value => .ok value
  | .flag value => .ok (Binary64.ofInt (if value then 1 else 0))
  | .whole value =>
      match Binary64.ofInt value with
      | .infinite _ => .error .wholeTooLarge
      | number => .ok number
  | other => .error (.notFloat other.typeName)

def fixedText (alternate : Bool) (significand : Nat) (exponent : Int) (places : Nat) : String :=
  Binary64.fixedMagnitude significand exponent places ++
    if places = 0 && alternate then "." else ""

def scientificText (alternate : Bool) (expansion : Binary64.Expansion) : String :=
  match expansion.digits with
  | [digit] =>
      String.ofList [digit] ++ (if alternate then "." else "") ++
        Binary64.exponentText expansion.order
  | _ => Binary64.scientific expansion

/-- Scientific outside the precision, fixed inside; trailing zeros go unless asked for. -/
def generalText (alternate : Bool) (significand : Nat) (exponent : Int) (count : Nat) : String :=
  let count := max count 1
  let expansion := Binary64.roundedTo significand exponent count
  let kept := if alternate then expansion.digits else Binary64.dropZeros expansion.digits
  if expansion.order < -4 || (count : Int) ≤ expansion.order then
    scientificText alternate ⟨kept, expansion.order⟩
  else if expansion.order < 0 then
    "0." ++ String.ofList (List.replicate (expansion.order.natAbs - 1) '0' ++ kept)
  else
    let whole := expansion.order.natAbs + 1
    let filled := kept ++ List.replicate (whole - kept.length) '0'
    String.ofList (filled.take whole) ++
      match filled.drop whole with
      | [] => if alternate then "." else ""
      | rest => "." ++ String.ofList rest

def formatFloat (place : Placeholder) (letter : Char) (value : Binary64) : String :=
  let count := place.precision.getD 6
  let body :=
    match value with
    | .finite _ significand exponent =>
        if letter.toLower = 'f' then fixedText place.alternate significand exponent count
        else if letter.toLower = 'e' then
          scientificText place.alternate (Binary64.roundedTo significand exponent (count + 1))
        else if significand = 0 then
          generalText place.alternate 0 0 count
        else generalText place.alternate significand exponent count
    | other => other.unsignedSpecial
  let shown := if letter.isUpper then upper body else body
  place.pad true "" (Binary64.signText value.isNegative ++ shown)

def formatText (place : Placeholder) (body : String) : String :=
  place.pad false ""
    (match place.precision with
    | some count => String.ofList (body.toList.take count)
    | none => body)

def formatLetter (place : Placeholder) : Value → Except TemplateError String
  | .whole value =>
      if 0 ≤ value && value < 0x110000 then
        .ok (place.pad false "" (String.ofList [Char.ofNat value.toNat]))
      else .error .letterOutOfRange
  | .flag value => .ok (place.pad false "" (String.ofList [Char.ofNat (if value then 1 else 0)]))
  | .text value =>
      if value.length = 1 then .ok (place.pad false "" value) else .error .notALetter
  | _ => .error .notALetter

def asciiShown (text : String) : String :=
  String.ofList (text.toList.flatMap fun letter =>
    if letter.toNat < 0x80 then [letter] else Text.escapeCode letter.toNat)

def convert (place : Placeholder) (letter : Char) (index : Nat) (value : Value) :
    Except TemplateError String :=
  if letter = 's' then .ok (formatText place value.written)
  else if letter = 'r' then .ok (formatText place value.shown)
  else if letter = 'a' then .ok (formatText place (asciiShown value.shown))
  else if letter = 'c' then formatLetter place value
  else if ['d', 'i', 'u', 'o', 'x', 'X'].contains letter then
    (wholeOf letter value).map (formatWhole place letter)
  else if ['e', 'E', 'f', 'F', 'g', 'G'].contains letter then
    (floatOf value).map (formatFloat place letter)
  else .error (.unsupported letter index)

def readKey : Nat → List Char → Option (List Char × List Char)
  | _, [] => none
  | depth, letter :: rest =>
      if letter = ')' && depth = 0 then some ([], rest)
      else
        let inner :=
          if letter = '(' then depth + 1 else if letter = ')' then depth - 1 else depth
        (readKey inner rest).map fun found => (letter :: found.1, found.2)

def readFlags (place : Placeholder) : List Char → Placeholder × List Char
  | letter :: rest =>
      if letter = '-' then readFlags { place with left := true } rest
      else if letter = '+' then readFlags { place with plus := true } rest
      else if letter = ' ' then readFlags { place with blank := true } rest
      else if letter = '#' then readFlags { place with alternate := true } rest
      else if letter = '0' then readFlags { place with zeros := true } rest
      else (place, letter :: rest)
  | [] => (place, [])

structure CountLimit where
  bound : Nat
  written : TemplateError
  given : TemplateError

def widthLimit : CountLimit := ⟨twoTo 63, .widthTooBig, .givenWidthTooBig⟩

def precisionLimit : CountLimit := ⟨twoTo 31, .precisionTooBig, .givenPrecisionTooBig⟩

def CountLimit.check (limit : CountLimit) (value : Int) : Except TemplateError Int :=
  if -(limit.bound : Int) ≤ value && value < limit.bound then .ok value else .error limit.given

def readCount (limit : CountLimit) (supply : Supply) (text : List Char) :
    Except TemplateError (Option Int × Supply × List Char) :=
  match text with
  | '*' :: rest =>
      match supply.next with
      | .ok (.whole value, supply) =>
          (limit.check value).map fun value => (some value, supply, rest)
      | .ok (.flag value, supply) => .ok (some (if value then 1 else 0), supply, rest)
      | .ok _ => .error .starNotWhole
      | .error error => .error error
  | _ =>
      let digits := text.takeWhile Char.isDigit
      let value : Nat := digits.foldl (fun total digit => 10 * total + (digit.toNat - 48)) 0
      if limit.bound ≤ value then .error limit.written
      else .ok (if digits.isEmpty then none else some value, supply, text.dropWhile Char.isDigit)

def readWidth (place : Placeholder) (supply : Supply) (text : List Char) :
    Except TemplateError (Placeholder × Supply × List Char) :=
  (readCount widthLimit supply text).map fun (count, supply, rest) =>
    match count with
    | some value =>
        ({ place with width := value.natAbs, left := place.left || decide (value < 0) },
          supply, rest)
    | none => (place, supply, rest)

def readPrecision (place : Placeholder) (supply : Supply) (text : List Char) :
    Except TemplateError (Placeholder × Supply × List Char) :=
  match text with
  | '.' :: rest =>
      (readCount precisionLimit supply rest).map fun (count, supply, rest) =>
        ({ place with precision := some (count.getD 0).toNat }, supply, rest)
  | _ => .ok (place, supply, text)

def dropLength : List Char → List Char
  | letter :: rest => if ['h', 'l', 'L'].contains letter then rest else letter :: rest
  | [] => []

def fill (whole : Nat) (supply : Supply) (text : List Char) :
    Except TemplateError (String × Supply × List Char) := do
  let (keyed, text) ←
    match text with
    | '(' :: rest =>
        match supply with
        | .items _ => .error .notATable
        | .table _ _ =>
            match readKey 0 rest with
            | none => .error .incompleteKey
            | some (key, rest) =>
                let value ← supply.lookup (String.ofList key)
                pure (some value, rest)
    | _ => pure (none, text)
  let source := match keyed with | some value => Supply.items [value] | none => supply
  let (place, text) := readFlags {} text
  let (place, source, text) ← readWidth place source text
  let (place, source, text) ← readPrecision place source text
  match dropLength text with
  | [] => .error .incomplete
  | letter :: rest =>
      let (value, source) ← source.next
      let written ← convert place letter (whole - rest.length - 1) value
      let left :=
        match keyed, supply with
        | some _, .table entries _ => Supply.table entries false
        | _, _ => source
      pure (written, left, rest)

def fillAll (whole : Nat) : Nat → Supply → List Char → Except TemplateError (String × Supply)
  | 0, supply, _ => .ok ("", supply)
  | _, supply, [] => .ok ("", supply)
  | fuel + 1, supply, '%' :: '%' :: rest => do
      let (tail, supply) ← fillAll whole fuel supply rest
      pure ("%" ++ tail, supply)
  | fuel + 1, supply, '%' :: rest => do
      let (written, supply, rest) ← fill whole supply rest
      let (tail, supply) ← fillAll whole fuel supply rest
      pure (written ++ tail, supply)
  | fuel + 1, supply, letter :: rest => do
      let (tail, supply) ← fillAll whole fuel supply rest
      pure (String.ofList [letter] ++ tail, supply)

/-- A message without arguments is taken as it is. A single table that is not empty serves keys;
otherwise every argument has to be used. -/
def fillTemplate (template : String) (arguments : List Value) : Except TemplateError String :=
  let text := template.toList
  match arguments with
  | [] => .ok template
  | [.table (entry :: entries)] =>
      (fillAll text.length text.length (.table (entry :: entries) true) text).map Prod.fst
  | arguments =>
      match fillAll text.length text.length (.items arguments) text with
      | .ok (written, .items []) => .ok written
      | .ok _ => .error .notAllUsed
      | .error error => .error error

end SteeringChannel.Journal
