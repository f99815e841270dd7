import SteeringChannel.Command

/-!
The running state that commands change, and the store that counts the commands applied to it.
-/

namespace SteeringChannel

structure RuntimeState where
  running : Bool := false
  value : Option Int := some 0
  deriving DecidableEq, Repr, Inhabited

namespace RuntimeState

def apply (state : RuntimeState) (command : Command) : RuntimeState :=
  match command.kind with
  | .start => { state with running := true }
  | .stop => { state with running := false }
  | .set => { state with value := command.value }

def runningText (state : RuntimeState) : String := if state.running then "True" else "False"

def text (state : RuntimeState) : String :=
  "running=" ++ state.runningText ++ " value=" ++ optionalText state.value

end RuntimeState

inductive StoreError where
  | initialOutOfRange (value : Int)
  | initialMissing
  deriving DecidableEq, Repr

def StoreError.message : StoreError → String
  | .initialOutOfRange value => "Initial value " ++ toString value ++ " out of range 0-255"
  | .initialMissing => "'<=' not supported between instances of 'int' and 'NoneType'"

structure Store where
  state : RuntimeState := {}
  applied : Nat := 0
  deriving DecidableEq, Repr, Inhabited

namespace Store

def create (initial : RuntimeState) : Except StoreError Store :=
  match initial.value with
  | none => .error .initialMissing
  | some value =>
      if 0 ≤ value ∧ value ≤ 255 then .ok ⟨initial, 0⟩ else .error (.initialOutOfRange value)

def apply (store : Store) (command : Command) : Store :=
  ⟨store.state.apply command, store.applied + 1⟩

end Store
end SteeringChannel
