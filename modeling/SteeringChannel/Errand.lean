import SteeringChannel.Session

/-!
Errands: one command, taken to the daemon by a client that connects, sends and leaves.
-/

namespace SteeringChannel

inductive Errand where
  | start
  | stop
  | set (text : String)
  deriving DecidableEq, Repr

namespace Errand

structure Result where
  status : Nat
  output : String := ""
  errors : String := ""
  deriving DecidableEq, Repr

def unreachable : Result := { status := 1, errors := "Control daemon is not running\n" }

def ofSendResult (result : SendResult) : Result :=
  if result.ok then
    { status := 0
      output := "Sent " ++ (result.command.map Command.text).getD "None" ++ "\n" }
  else { status := 1, errors := "Send failed: " ++ result.error.getD "None" ++ "\n" }

def unreachableRecord (error : ConnectError) : Journal.Record :=
  { level := Journal.debug, source := Journal.Source.root, message := error.message }

def clientName : String := "errand"

variable {σ : Type} [Outlet σ]

def send (session : Session σ) : Errand → Session σ × Except CommandError SendResult
  | .start => session.send clientName Command.start
  | .stop => session.send clientName Command.stop
  | .set text => session.sendText clientName text

def run (session : Session σ) (path : String) (errand : Errand) :
    Session σ × Except CommandError Result :=
  match session.connect clientName path with
  | (session, some error) => (session.note (unreachableRecord error), .ok unreachable)
  | (session, none) =>
      let (sent, result) := errand.send session
      (sent.closeClient clientName, result.map ofSendResult)

end Errand
end SteeringChannel
