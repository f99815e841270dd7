import SteeringChannel.Filesystem
import SteeringChannel.Terminal

/-!
The device behind a relay: what arrives on it, how its calls fail, and what has been asked of it.
-/

namespace SteeringChannel.Relay

inductive Arrival where
  | bytes (data : List UInt8)
  | ending
  | failure (number : Int)
  deriving DecidableEq, Repr

inductive Call where
  | opened
  | closed
  | changed (change : Terminal.Change)
  deriving DecidableEq, Repr

structure Device where
  name : String := "dev0"
  openFailure : Option Int := none
  line : Terminal.Line := {}
  arrivals : List Arrival := []
  late : List Arrival := []
  writeFailures : List Int := []
  held : Bool := false
  written : List UInt8 := []
  calls : List Call := []
  deriving DecidableEq, Repr

namespace Device

def join (arrivals : List Arrival) (arrival : Arrival) : List Arrival :=
  match arrivals.getLast?, arrival with
  | some (.bytes before), .bytes data => arrivals.dropLast ++ [.bytes (before ++ data)]
  | _, arrival => arrivals ++ [arrival]

def arrive (device : Device) (arrival : Arrival) : Device :=
  { device with arrivals := join device.arrivals arrival }

def write (device : Device) (bytes : List UInt8) : Device × Option Int :=
  match device.writeFailures with
  | number :: rest => ({ device with writeFailures := rest }, some number)
  | [] => ({ device with written := device.written ++ bytes }, none)

def note (device : Device) (calls : List Call) : Device :=
  { device with calls := device.calls ++ calls }

def settleLine (device : Device) (changes : List Terminal.Change) : Device :=
  { device with
    line := { device.line with
      attributes := device.line.attributes.map fun attributes =>
        Terminal.settle attributes changes } }

end Device

inductive StartError where
  | system (error : SystemError)
  | embeddedNul
  | line (error : Terminal.LineError)
  deriving DecidableEq, Repr

def StartError.message : StartError → String
  | .system error => error.message
  | .embeddedNul => "embedded null byte"
  | .line error => error.message

def Device.open (device : Device) (baudrate : Int) : Device × Option StartError :=
  match device.openFailure with
  | some number => (device, some (.system ⟨number, some device.name⟩))
  | none =>
      match device.line.attributes with
      | none => (device.note [.opened], none)
      | some _ =>
          match Terminal.configure baudrate device.line with
          | .ok changes =>
              ((device.settleLine changes).note (.opened :: changes.map Call.changed), none)
          | .error error => (device.note [.opened, .closed], some (.line error))

def openPlain (tree : Filesystem) (path : String) : Except StartError (List Arrival) :=
  if Path.hasNul path then .error .embeddedNul
  else match tree.target path with
    | .error number => .error (.system ⟨number, some path⟩)
    | .ok .directory => .error (.system ⟨SystemError.isADirectory, some path⟩)
    | .ok (.socket _) => .error (.system ⟨SystemError.noDevice, some path⟩)
    | .ok (.file content) =>
        .ok (if content = "" then [.ending]
          else [.bytes (Text.Utf8.encode content.toList), .ending])
    | .ok _ => .ok []

end SteeringChannel.Relay
