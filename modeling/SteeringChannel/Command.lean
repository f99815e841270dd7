/-!
Commands of the control channel and their one-byte form. Two bytes are reserved for starting and
stopping; every other byte sets the value to itself.
-/

namespace SteeringChannel

def startByte : Int := 0x50

def stopByte : Int := 0x45

inductive CommandKind where
  | start
  | stop
  | set
  deriving DecidableEq, Repr

def CommandKind.name : CommandKind → String
  | .start => "START"
  | .stop => "STOP"
  | .set => "SET"

structure Command where
  kind : CommandKind
  value : Option Int := none
  deriving DecidableEq, Repr

inductive CommandError where
  | outOfRange (value : Int)
  | missingValue
  | notAByte
  deriving DecidableEq, Repr

namespace CommandError

def message : CommandError → String
  | outOfRange value => "Value " ++ toString value ++ " out of range 0-255"
  | missingValue => "'NoneType' object cannot be interpreted as an integer"
  | notAByte => "bytes must be in range(0, 256)"

end CommandError

def optionalText : Option Int → String
  | none => "None"
  | some value => toString value

namespace Command

def start : Command := ⟨.start, none⟩

def stop : Command := ⟨.stop, none⟩

def set (value : Int) : Except CommandError Command :=
  if 0 ≤ value ∧ value ≤ 255 then .ok ⟨.set, some value⟩ else .error (.outOfRange value)

def text (command : Command) : String :=
  match command.kind with
  | .set => "SET(" ++ optionalText command.value ++ ")"
  | kind => kind.name

def decode (raw : Int) : Except CommandError Command :=
  if raw = startByte then .ok start
  else if raw = stopByte then .ok stop
  else set raw

def ofByte (byte : UInt8) : Command :=
  if (byte.toNat : Int) = startByte then start
  else if (byte.toNat : Int) = stopByte then stop
  else ⟨.set, some byte.toNat⟩

def encode (command : Command) : Except CommandError UInt8 :=
  match command.kind, command.value with
  | .start, _ => .ok (UInt8.ofNat startByte.toNat)
  | .stop, _ => .ok (UInt8.ofNat stopByte.toNat)
  | .set, none => .error .missingValue
  | .set, some value =>
      if 0 ≤ value ∧ value ≤ 255 then .ok (UInt8.ofNat value.toNat) else .error .notAByte

/-- A set command with a reserved value is read as another command by the receiver. -/
def isAmbiguous (command : Command) : Bool :=
  command.kind == .set && (command.value == some startByte || command.value == some stopByte)

theorem decode_byte (byte : UInt8) : decode byte.toNat = .ok (ofByte byte) := by
  have bound : byte.toNat < 256 := byte.toNat_lt
  unfold decode ofByte set
  split
  · rfl
  · split
    · rfl
    · rw [if_pos (by omega)]

end Command
end SteeringChannel
