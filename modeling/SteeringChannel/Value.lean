import SteeringChannel.Number.Decimal
import SteeringChannel.Text.Quoted

/-!
Loosely typed values: keyword settings before they are checked, and the arguments of journal
messages before they are written.
-/

namespace SteeringChannel

inductive Value where
  | none
  | flag (value : Bool)
  | whole (value : Int)
  | real (value : Binary64)
  | text (value : String)
  | list (items : List Value)
  | table (entries : List (String × Value))
  deriving Repr, Inhabited

namespace Value

def typeName : Value → String
  | none => "NoneType"
  | flag _ => "bool"
  | whole _ => "int"
  | real _ => "float"
  | text _ => "str"
  | list _ => "list"
  | table _ => "dict"

mutual

def shown : Value → String
  | none => "None"
  | flag value => if value then "True" else "False"
  | whole value => toString value
  | real value => value.text
  | text value => Text.quote value
  | list items => "[" ++ String.intercalate ", " (shownItems items) ++ "]"
  | table entries => "\x7b" ++ String.intercalate ", " (shownEntries entries) ++ "\x7d"

def shownItems : List Value → List String
  | [] => []
  | item :: rest => shown item :: shownItems rest

def shownEntries : List (String × Value) → List String
  | [] => []
  | (name, item) :: rest => (Text.quote name ++ ": " ++ shown item) :: shownEntries rest

end

def written : Value → String
  | text value => value
  | other => other.shown

end Value
end SteeringChannel
