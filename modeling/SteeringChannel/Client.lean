import SteeringChannel.Command.Entry
import SteeringChannel.Filesystem.Address
import SteeringChannel.Journal.Record

/-!
Clients of the control channel: the connection they hold, and the answers they get when they send
a command.
-/

namespace SteeringChannel

inductive Peer where
  | server (index : Nat) (connection : Nat)
  | unattended
  deriving DecidableEq, Repr

structure Link where
  peer : Peer
  broken : Bool := false
  deriving DecidableEq, Repr

structure Client where
  path : String
  link : Option Link := none
  deriving DecidableEq, Repr

structure ConnectError where
  path : String
  cause : Address.Failure
  deriving DecidableEq, Repr

def ConnectError.message (error : ConnectError) : String :=
  "Cannot connect to " ++ error.path ++ ": " ++ error.cause.message

structure SendResult where
  ok : Bool
  command : Option Command := none
  error : Option String := none
  deriving DecidableEq, Repr

namespace Client

def isConnected (client : Client) : Bool :=
  match client.link with
  | some link => !link.broken
  | none => false

def record (level : Int) (message : String) : Journal.Record :=
  { level := level, source := Journal.Source.control, message := message }

def connectedRecord (client : Client) : Journal.Record :=
  record Journal.debug ("Connected to " ++ client.path)

def notConnected : String := "not connected"

def connectionLost : String := "Connection lost"

def sendFailureRecord (command : Command) : Journal.Record :=
  record Journal.debug ("Send of " ++ command.text ++ " failed: " ++ connectionLost)

def closeFailureRecord : Journal.Record :=
  record Journal.debug ("Error closing control connection: " ++
    (SystemError.mk SystemError.brokenPipe none).message)

def ambiguityRecord? (command : Command) : Option Journal.Record :=
  match command.isAmbiguous, command.value with
  | true, some value =>
      match Command.decode value with
      | .ok read =>
          some (record Journal.warning
            (command.text ++ " uses a reserved byte and will be read as " ++ read.text))
      | .error _ => none
  | _, _ => none

end Client
end SteeringChannel
