import SteeringChannel.Dispatch
import SteeringChannel.Number.Decimal
import SteeringChannel.Server.Connection
import SteeringChannel.Settings

/-!
The server of the control channel. Connections arrive, are admitted, rejected or turned away, wait
in a queue, and are handed one by one to the tasks that accept them. Every operation goes on until
nothing more can happen without a new arrival, so a state between operations is a settled one.
-/

namespace SteeringChannel

inductive Duty where
  | serve
  | accept
  | handle
  deriving DecidableEq, Repr

structure Waiter where
  task : Nat
  duty : Duty
  deriving DecidableEq, Repr

structure Handler where
  task : Nat
  repeats : Bool
  connection : Nat
  since : Rat
  deriving DecidableEq, Repr

inductive ListenerError where
  | notOpen (path : String)
  | wasClosed (path : String)
  deriving DecidableEq, Repr

def ListenerError.message : ListenerError → String
  | .notOpen path => "Listener on " ++ path ++ " is not open"
  | .wasClosed path => "Listener on " ++ path ++ " was closed"

inductive Outcome where
  | returned
  | accepted (connection : Nat) (isOpen : Bool)
  | handled
  | released
  | refused (error : ListenerError)
  deriving DecidableEq, Repr

def Waiter.handler? (waiter : Waiter) (now : Rat) (id : Nat) : Option Handler :=
  match waiter.duty with
  | .serve => some ⟨waiter.task, true, id, now⟩
  | .handle => some ⟨waiter.task, false, id, now⟩
  | .accept => none

def Duty.refusal (error : ListenerError) : Duty → Outcome
  | .serve => .returned
  | _ => .refused error

def Connection.releases (connection : Connection) : List (Nat × Outcome) :=
  connection.task.toList.map fun task => (task, .released)

structure Server (σ : Type) where
  path : String
  mode : Int := 438
  timeout : Option Binary64 := none
  rejecting : Bool := true
  dispatcher : Dispatcher σ := {}
  listening : Bool := false
  stopped : Bool := false
  connections : List Connection := []
  queue : List Nat := []
  active : Option Nat := none
  served : Nat := 0
  accepted : List Nat := []
  waiters : List Waiter := []
  handlers : List Handler := []
  records : List Journal.Record := []
  finished : List (Nat × Outcome) := []
  deriving DecidableEq, Repr

namespace Server

variable {σ : Type}

def limitTimeout (timeout : Option Binary64) : Option Binary64 :=
  timeout.filter fun value => !value.isZero

def ofSettings (settings : Settings) (dispatcher : Dispatcher σ) : Server σ :=
  { path := settings.socketPath
    mode := settings.socketMode
    timeout := settings.readTimeout
    rejecting := settings.rejectConcurrent
    dispatcher := dispatcher }

def isListening (server : Server σ) : Bool := server.listening && !server.stopped

/-- The socket is bound; only a server that was never stopped then listens. -/
def listen (server : Server σ) : Server σ := { server with listening := true }

def limit (server : Server σ) : Option Rat := server.timeout.bind Binary64.toRat?

def note (server : Server σ) (record : Journal.Record) : Server σ :=
  { server with records := server.records ++ [record] }

def complete (server : Server σ) (task : Nat) (outcome : Outcome) : Server σ :=
  { server with finished := server.finished ++ [(task, outcome)] }

def connection? (server : Server σ) (id : Nat) : Option Connection :=
  server.connections.find? fun connection => connection.id == id

def update (server : Server σ) (id : Nat) (change : Connection → Connection) : Server σ :=
  { server with connections := server.connections.map fun connection =>
      if connection.id == id then change connection else connection }

def isOpen (server : Server σ) (id : Nat) : Bool :=
  match server.connection? id with
  | some connection => connection.isOpen
  | none => false

def shut (server : Server σ) (id : Nat) : Server σ :=
  { server.update id Connection.close with
    finished := server.finished ++
      ((server.connection? id).filter Connection.isOpen).toList.flatMap Connection.releases }

def close (server : Server σ) (id : Nat) : Server σ :=
  { server.shut id with
    records := server.records ++
      ((server.connection? id).filter Connection.isOpen).toList.flatMap Connection.closeRecords }

def dismiss (server : Server σ) (id : Nat) (record : Journal.Record) : Server σ :=
  (server.note record).close id

def reported (server : Server σ) : Server σ := { server with records := [], finished := [] }

def closedRecord : Journal.Record := Connection.record Journal.info "Control listener closed"

def refuse (server : Server σ) (waiter : Waiter) (error : ListenerError) : Server σ :=
  { server with
    records := server.records ++ if waiter.duty = .serve then [closedRecord] else []
    finished := server.finished ++ [(waiter.task, waiter.duty.refusal error)] }

def await (server : Server σ) (waiter : Waiter) : Server σ :=
  if server.isListening then { server with waiters := server.waiters ++ [waiter] }
  else server.refuse waiter (.notOpen server.path)

def release (server : Server σ) (id : Nat) : Server σ :=
  { server.update id (fun connection => connection.mark .handled) with
    handlers := server.handlers.filter fun handler => handler.connection != id
    active := if server.active = some id then none else server.active
    served := server.served + 1 }

def leave (server : Server σ) (handler : Handler) : Server σ :=
  let released := server.release handler.connection
  if handler.repeats then released.await ⟨handler.task, .serve⟩
  else released.complete handler.task .handled

def endHandling (server : Server σ) (handler : Handler) (record : Journal.Record) : Server σ :=
  (server.dismiss handler.connection record).leave handler

def idleRecord (server : Server σ) (id : Nat) : Journal.Record :=
  Connection.record Journal.warning ("Client " ++ Connection.number id ++ " idle for " ++
    (server.timeout.getD (.zero false)).fixed 1 ++ "s, closing")

def neverWaits (server : Server σ) : Bool :=
  match server.limit with
  | some limit => limit ≤ 0
  | none => false

section Reading

variable [Outlet σ]

def touch (server : Server σ) (now : Rat) (id : Nat) : Server σ :=
  { server with handlers := server.handlers.map fun handler =>
      if handler.connection == id then { handler with since := now } else handler }

def consume (server : Server σ) (now : Rat) (id : Nat) (bytes : List UInt8) : Server σ :=
  let dispatched := server.dispatcher.dispatchBytes bytes
  let server := { server with
    dispatcher := dispatched.1, records := server.records ++ dispatched.2 }
  let server := if bytes.isEmpty then server else server.touch now id
  server.update id fun connection => connection.take bytes.length

def read (server : Server σ) (now : Rat) (handler : Handler) : Server σ :=
  match server.connection? handler.connection with
  | none => server
  | some connection =>
      if server.neverWaits then
        server.endHandling handler (server.idleRecord handler.connection)
      else
        let consumed := server.consume now handler.connection connection.unread
        match connection.ending with
        | some ending =>
            consumed.endHandling handler (Connection.endingRecord handler.connection ending)
        | none => consumed

def handler? (server : Server σ) (id : Nat) : Option Handler :=
  server.handlers.find? fun handler => handler.connection == id

def readIfHandled (server : Server σ) (now : Rat) (id : Nat) : Server σ :=
  match server.handler? id with
  | some handler => server.read now handler
  | none => server

def hand (server : Server σ) (now : Rat) (waiter : Waiter) (id : Nat) : Server σ :=
  { server.update id (fun connection => connection.mark .handed) with
    active := some id
    accepted := server.accepted ++ [id]
    handlers := server.handlers ++ (waiter.handler? now id).toList
    records := server.records ++
      if waiter.duty = .accept then [] else [Connection.connectedRecord id]
    finished := server.finished ++
      if waiter.duty = .accept then [(waiter.task, .accepted id (server.isOpen id))] else [] }

def handFirst (server : Server σ) (now : Rat) : Server σ :=
  match server.queue, server.waiters with
  | id :: rest, waiter :: others =>
      { server.hand now waiter id with queue := rest, waiters := others }
  | _, _ => server

def settleFirst (server : Server σ) (now : Rat) : Server σ :=
  match server.queue, server.waiters with
  | id :: _, _ :: _ => (server.handFirst now).readIfHandled now id
  | _, _ => server

def settle (server : Server σ) (now : Rat) : Server σ :=
  server.queue.foldl (fun server _ => server.settleFirst now) server

def startTask (server : Server σ) (now : Rat) (task : Nat) (duty : Duty) : Server σ :=
  (server.await ⟨task, duty⟩).settle now

def rejectionRecord (id active : Nat) : Journal.Record :=
  Connection.record Journal.warning ("Rejecting client " ++ Connection.number id ++ ", client " ++
    Connection.number active ++ " still connected")

def nextId (server : Server σ) : Nat := server.connections.length + 1

def fate (server : Server σ) : Standing :=
  if server.stopped then .turnedAway
  else if server.rejecting && server.active.isSome then .rejected
  else .queued

def rejectionRecords (server : Server σ) : List Journal.Record :=
  match server.fate, server.active with
  | .rejected, some active => [rejectionRecord server.nextId active]
  | _, _ => []

/-- Numbers a connection, whatever number it came with. If it may not wait in the queue, it is
closed at once. -/
def register (server : Server σ) (arrival : Connection) : Server σ :=
  let connection := { arrival with id := server.nextId, standing := server.fate }
  if server.fate = .queued then
    { server with
      connections := server.connections ++ [connection]
      queue := server.queue ++ [server.nextId]
      active := if server.rejecting then some server.nextId else server.active }
  else
    { server with
      connections := server.connections ++ [connection.close]
      records := server.records ++ server.rejectionRecords ++ connection.closeRecords
      finished := server.finished ++ connection.releases }

def arrive (server : Server σ) (now : Rat) (arrival : Connection) : Server σ :=
  let registered := server.register arrival
  if server.fate = .queued then registered.settle now else registered

def receive (server : Server σ) (id : Nat) (bytes : List UInt8) : Server σ :=
  server.update id fun connection => connection.receive bytes

def deliver (server : Server σ) (now : Rat) (id : Nat) (bytes : List UInt8) : Server σ :=
  if server.isOpen id then ((server.receive id bytes).readIfHandled now id).settle now else server

def finish (server : Server σ) (id : Nat) (ending : Ending) : Server σ :=
  server.update id fun connection => connection.finish ending

def endStream (server : Server σ) (now : Rat) (id : Nat) (ending : Ending) : Server σ :=
  if server.isOpen id then (server.finish id ending).readIfHandled now id else server

def hangUp (server : Server σ) (now : Rat) (id : Nat) (ending : Ending) : Server σ :=
  (server.endStream now id ending).settle now

def deadline? (server : Server σ) (handler : Handler) : Option Rat :=
  server.limit.map fun limit => handler.since + limit

def isDue (server : Server σ) (now : Rat) (handler : Handler) : Bool :=
  match server.deadline? handler with
  | some deadline => deadline ≤ now
  | none => false

/-- A connection whose time is over is closed. Only a scripted one is left at once; the others
take until every connection that is due has been closed. -/
def expire (server : Server σ) (now : Rat) (handler : Handler) : Server σ :=
  let closed := server.dismiss handler.connection (server.idleRecord handler.connection)
  match server.connection? handler.connection with
  | some connection =>
      if connection.scripted then (closed.leave handler).settle now else closed
  | none => closed

def leaveExpired (server : Server σ) (now : Rat) (handler : Handler) : Server σ :=
  if server.handlers.contains handler then (server.leave handler).settle now else server

inductive Moment where
  | closeFailed (id : Nat)
  | left (handler : Handler)
  | woken (waiter : Waiter)
  deriving DecidableEq, Repr

/-- Closing a connection of a peer takes two moments, a scripted one none. The task that reads it
notices as long after, or two moments later still where reads have a time limit. -/
def momentsOf (server : Server σ) (start : Nat) : List Connection → List (Nat × Moment) × Nat
  | [] => ([], start)
  | connection :: rest =>
      let noticed :=
        start + (if connection.scripted then 1 else 2) + if server.timeout.isSome then 2 else 0
      let next := if connection.scripted then start else start + 2
      let failed :=
        if connection.closeFails then [(start, Moment.closeFailed connection.id)] else []
      let left := (server.handler? connection.id).toList.map fun handler =>
        (noticed, Moment.left handler)
      let (others, finish) := momentsOf server next rest
      (failed ++ left ++ others, finish)

def moments (server : Server σ) : List (Nat × Moment) :=
  let openOnes := server.connections.filter Connection.isOpen
  let (closing, finish) := server.momentsOf 0 openOnes
  let waking := server.waiters.head?.toList.map fun waiter => (finish + 1, Moment.woken waiter)
  (closing ++ waking).mergeSort fun first second => first.1 ≤ second.1

def live (server : Server σ) : Moment → Server σ
  | .closeFailed id => server.note (Connection.closeFailureRecord id)
  | .left handler =>
      (server.note (Connection.disconnectedRecord handler.connection)).leave handler
  | .woken waiter => server.refuse waiter (.wasClosed server.path)

def beginStop (server : Server σ) : Server σ := { server with stopped := true }

def openIds (server : Server σ) : List Nat :=
  (server.connections.filter Connection.isOpen).map Connection.id

def drain (server : Server σ) : Server σ :=
  { server with
    connections := server.connections.map Connection.discard
    listening := false
    queue := []
    waiters := server.waiters.tail }

def halt (server : Server σ) : Server σ := (server.openIds.foldl shut server.beginStop).drain

def stop (server : Server σ) : Server σ :=
  server.moments.foldl (fun server moment => server.live moment.2) server.halt

end Reading

end Server
end SteeringChannel
