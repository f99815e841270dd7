import SteeringChannel.Relay
import SteeringChannel.Server

/-!
A server put together from settings: its store starts at the initial value, and its outlet is the
relay if there is one.
-/

namespace SteeringChannel

namespace Settings

def initialState (settings : Settings) : RuntimeState := { value := some settings.initialValue }

def relay? (settings : Settings) (device : Relay.Device) : Option Relay :=
  if settings.relayDevice = "" then none
  else some { path := settings.relayDevice, baudrate := settings.relayBaudrate, device := device }

end Settings

def Server.assemble (settings : Settings) (device : Relay.Device) :
    Except StoreError (Server Relay) :=
  (Store.create settings.initialState).map fun store =>
    .ofSettings settings { store := store, outlet := settings.relay? device }

end SteeringChannel
