import SteeringChannel.Journal.Record
import SteeringChannel.State
import SteeringChannel.Text.Quoted

/-!
Applying bytes to the store. Each byte is decoded, applied, written to the journal and then passed
on to the outlet; what goes wrong in the outlet is noted and never reaches the caller.
-/

namespace SteeringChannel

structure Forwarding (σ : Type) where
  next : σ
  records : List Journal.Record := []
  failure : Option Journal.Failure := none

class Outlet (σ : Type) where
  forward : σ → Int → Forwarding σ

structure Recorder where
  failing : List Int := []
  received : List Int := []
  deriving DecidableEq, Repr

def Recorder.forward (recorder : Recorder) (raw : Int) : Forwarding Recorder :=
  if recorder.failing.contains raw then
    { next := recorder
      failure := some ⟨"OSError", "relay device gone (" ++ toString raw ++ ")"⟩ }
  else { next := { recorder with received := recorder.received ++ [raw] } }

instance : Outlet Recorder := ⟨Recorder.forward⟩

structure Dispatcher (σ : Type) where
  store : Store := {}
  outlet : Option σ := none
  deriving DecidableEq, Repr

namespace Dispatcher

variable {σ : Type} [Outlet σ]

def changeRecord (before after : RuntimeState) (command : Command) : Journal.Record :=
  { level := Journal.info
    source := Journal.Source.dispatcher
    message := "State: " ++ before.text ++ " -> " ++ after.text ++ " (" ++ command.text ++ ")" }

def unchangedRecord (command : Command) : Journal.Record :=
  { level := Journal.debug
    source := Journal.Source.dispatcher
    message := "Command " ++ command.text ++ " left state unchanged" }

def stateRecord (before after : RuntimeState) (command : Command) : Journal.Record :=
  if before = after then unchangedRecord command else changeRecord before after command

def failureRecord (raw : Int) (failure : Journal.Failure) : Journal.Record :=
  { level := Journal.error
    source := Journal.Source.dispatcher
    message := "Failed to relay byte 0x" ++ String.ofList (Text.hexDigits 2 raw.toNat)
    failure := some failure }

def passOn (raw : Int) : Option σ → Option σ × List Journal.Record
  | none => (none, [])
  | some outlet =>
      let forwarding := Outlet.forward outlet raw
      (some forwarding.next,
        forwarding.records ++ (forwarding.failure.map (failureRecord raw)).toList)

def carry (dispatcher : Dispatcher σ) (raw : Int) (command : Command) :
    Dispatcher σ × List Journal.Record :=
  let store := dispatcher.store.apply command
  let passed := passOn raw dispatcher.outlet
  (⟨store, passed.1⟩,
    stateRecord dispatcher.store.state store.state command :: passed.2)

def dispatch (dispatcher : Dispatcher σ) (raw : Int) :
    Except CommandError (Command × Dispatcher σ × List Journal.Record) :=
  (Command.decode raw).map fun command => (command, dispatcher.carry raw command)

/-- A byte is always a command, so it is dispatched without a check. -/
def dispatchByte (dispatcher : Dispatcher σ) (byte : UInt8) :
    Dispatcher σ × List Journal.Record :=
  dispatcher.carry byte.toNat (Command.ofByte byte)

def dispatchBytes (dispatcher : Dispatcher σ) : List UInt8 → Dispatcher σ × List Journal.Record
  | [] => (dispatcher, [])
  | byte :: rest =>
      let first := dispatcher.dispatchByte byte
      let others := dispatchBytes first.1 rest
      (others.1, first.2 ++ others.2)

theorem dispatch_byte (dispatcher : Dispatcher σ) (byte : UInt8) :
    dispatcher.dispatch byte.toNat =
      .ok (Command.ofByte byte, dispatcher.dispatchByte byte) := by
  simp [dispatch, Command.decode_byte, dispatchByte, Except.map]

end Dispatcher
end SteeringChannel
