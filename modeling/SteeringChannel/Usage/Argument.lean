import SteeringChannel.Text.Digit
import SteeringChannel.Usage

/-!
What the arguments of a command line are to a form: options, operands, and the separator after
which everything is an operand. Long options may be shortened as long as one spelling fits.
-/

namespace SteeringChannel.Usage

inductive Role where
  | separator
  | operand
  | option (switch : Switch) (isLetter : Bool) (value : Option String)
  | unknownOption
  deriving DecidableEq, Repr

structure Argument where
  text : String
  role : Role
  deriving DecidableEq, Repr

def splitEquals (letters : List Char) : List Char × Option (List Char) :=
  (letters.takeWhile (· != '='),
    if letters.contains '=' then some ((letters.dropWhile (· != '=')).drop 1) else none)

def areDigits (letters : List Char) : Bool :=
  !letters.isEmpty && letters.all Text.isDecimalDigit

/-- A minus sign and digits, with a point somewhere before the last digit if at all. A line feed
at the end does not matter. -/
def isNegativeNumber (letters : List Char) : Bool :=
  let letters := if letters.getLast? == some '\n' then letters.dropLast else letters
  match letters with
  | '-' :: rest =>
      areDigits rest || match rest.dropWhile Text.isDecimalDigit with
        | '.' :: places => areDigits places
        | _ => false
  | _ => false

def Form.candidates (form : Form) (letters : List Char) :
    List ((String × Switch) × Option (List Char)) :=
  match letters with
  | '-' :: '-' :: _ =>
      let (name, value) := splitEquals letters
      (form.options.filter fun option => name.isPrefixOf option.1.toList).map (·, value)
  | letters =>
      (form.options.filter fun option => option.1.toList == letters.take 2).map
        (·, some (letters.drop 2))

def roleOf (spelling : List Char) (switch : Switch) (value : Option (List Char)) : Role :=
  .option switch (spelling.length == 2) (value.map String.ofList)

def Form.guess (form : Form) (text : String) : Except Problem Role :=
  match form.candidates text.toList with
  | [(option, value)] => .ok (roleOf option.1.toList option.2 value)
  | [] =>
      .ok (if isNegativeNumber text.toList || text.toList.contains ' ' then .operand
        else .unknownOption)
  | several => .error (.ambiguous text (several.map fun candidate => candidate.1.1))

def Form.role (form : Form) (text : String) : Except Problem Role :=
  if text.toList.head? != some '-' || text == "-" then .ok .operand
  else match form.switch? text with
    | some switch => .ok (roleOf text.toList switch none)
    | none =>
        match splitEquals text.toList with
        | (_, none) => form.guess text
        | (name, some value) =>
            match form.switch? (String.ofList name) with
            | some switch => .ok (roleOf name switch (some value))
            | none => form.guess text

def Form.sort (form : Form) : List String → Except Problem (List Argument)
  | [] => .ok []
  | text :: rest =>
      if text = "--" then
        .ok (⟨text, .separator⟩ :: rest.map fun operand => ⟨operand, .operand⟩)
      else
        match form.role text, form.sort rest with
        | .error problem, _ => .error problem
        | .ok _, .error problem => .error problem
        | .ok role, .ok others => .ok (⟨text, role⟩ :: others)

end SteeringChannel.Usage
