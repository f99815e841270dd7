import SteeringChannel.Number.Decimal

/-!
The settings of the control channel.
-/

namespace SteeringChannel

structure Settings where
  socketPath : String := "/dev/swi"
  socketMode : Int := 438
  readTimeoutSeconds : Binary64 := .zero false
  rejectConcurrent : Bool := true
  initialValue : Int := 0
  relayDevice : String := ""
  relayBaudrate : Int := 115200
  logFile : String := ""
  logColor : Bool := true
  deriving DecidableEq, Repr, Inhabited

def Settings.readTimeout (settings : Settings) : Option Binary64 :=
  if settings.readTimeoutSeconds.isZero then none else some settings.readTimeoutSeconds

end SteeringChannel
