import SteeringChannel.Command
import SteeringChannel.Number.Whole
import SteeringChannel.Text.Blank
import SteeringChannel.Text.Quoted

/-!
Values typed by a user: a whole number from 0 to 255, blanks around it ignored.
-/

namespace SteeringChannel

inductive EntryError where
  | notAnInteger (text : String)
  | outOfRange (value : Int)
  deriving DecidableEq, Repr

def EntryError.message : EntryError → String
  | .notAnInteger text => "Not an integer: " ++ Text.quote text
  | .outOfRange value => (CommandError.outOfRange value).message

def parseValue (text : String) : Except EntryError Int :=
  match Whole.read (Text.strip text.toList) with
  | none => .error (.notAnInteger text)
  | some value =>
      if 0 ≤ value ∧ value ≤ 255 then .ok value else .error (.outOfRange value)

end SteeringChannel
