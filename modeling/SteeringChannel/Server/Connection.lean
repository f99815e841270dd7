import SteeringChannel.Journal.Record
import SteeringChannel.SystemError

/-!
Connections as the server sees them: what the peer has delivered, how its stream ends, and what
has become of them.
-/

namespace SteeringChannel

inductive Ending where
  | finished
  | reset
  | broken
  deriving DecidableEq, Repr

inductive Standing where
  | queued
  | handed
  | handled
  | discarded
  | rejected
  | turnedAway
  deriving DecidableEq, Repr

structure Connection where
  id : Nat
  taken : List UInt8 := []
  unread : List UInt8 := []
  ending : Option Ending := none
  scripted : Bool := false
  closeFails : Bool := false
  closes : Nat := 0
  standing : Standing := .queued
  task : Option Nat := none
  deriving DecidableEq, Repr

namespace Connection

def isOpen (connection : Connection) : Bool := connection.closes == 0

def delivered (connection : Connection) : List UInt8 := connection.taken ++ connection.unread

def close (connection : Connection) : Connection :=
  if connection.isOpen then { connection with closes := connection.closes + 1 } else connection

def mark (connection : Connection) (standing : Standing) : Connection :=
  { connection with standing := standing }

def discard (connection : Connection) : Connection :=
  if connection.standing = .queued then connection.mark .discarded else connection

def take (connection : Connection) (count : Nat) : Connection :=
  { connection with
    taken := connection.taken ++ connection.unread.take count
    unread := connection.unread.drop count }

def receive (connection : Connection) (bytes : List UInt8) : Connection :=
  if connection.isOpen && connection.ending.isNone then
    { connection with unread := connection.unread ++ bytes }
  else connection

def finish (connection : Connection) (ending : Ending) : Connection :=
  if connection.isOpen then { connection with ending := connection.ending <|> some ending }
  else connection

def number (id : Nat) : String := "#" ++ toString id

def record (level : Int) (message : String) : Journal.Record :=
  { level := level, source := Journal.Source.control, message := message }

def closeFailureRecord (id : Nat) : Journal.Record :=
  record Journal.debug ("Client " ++ number id ++ " closed with error: " ++
    (SystemError.mk SystemError.brokenPipe none).message)

def connectedRecord (id : Nat) : Journal.Record :=
  record Journal.info ("Client " ++ number id ++ " connected")

def disconnectedRecord (id : Nat) : Journal.Record :=
  record Journal.info ("Client " ++ number id ++ " disconnected")

def endingRecord (id : Nat) : Ending → Journal.Record
  | .finished => disconnectedRecord id
  | .reset => record Journal.warning ("Read error on client " ++ number id ++ ": " ++
      (SystemError.mk SystemError.connectionReset none).message)
  | .broken =>
      { record Journal.error ("Error handling control client " ++ number id) with
        failure := some ⟨"RuntimeError", "reader broke"⟩ }

def closeRecords (connection : Connection) : List Journal.Record :=
  if connection.closeFails then [closeFailureRecord connection.id] else []

end Connection
end SteeringChannel
