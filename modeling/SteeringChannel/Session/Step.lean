import SteeringChannel.Session

/-!
Steps of a session and what each one reports. A task that is not done at the end of its step goes
on in the background, and a later step reports its outcome.
-/

namespace SteeringChannel.Session

inductive Step where
  | listen (server : Nat)
  | stop (server : Nat)
  | start (server : Nat) (duty : Duty)
  | inject (server : Nat) (bytes : List UInt8) (ending : Option Ending) (closeFails : Bool)
  | advance (seconds : Rat)
  | isLive (path : String)
  | modeOf (path : String)
  | connect (client path : String)
  | reconnect (client : String)
  | closeClient (client : String)
  | send (client : String) (command : Command)
  | sendValue (client : String) (value : Int)
  | sendText (client text : String)
  | openWire (wire path : String)
  | writeWire (wire : String) (bytes : List UInt8)
  | endWire (wire : String)
  | closeWire (wire : String)
  | readWire (wire : String)
  deriving Repr

inductive Failure where
  | listen (error : ListenError)
  | path (error : PathError)
  | address (error : Address.Failure)
  | connect (error : ConnectError)
  | command (error : CommandError)
  | listener (error : ListenerError)
  | system (error : SystemError)
  deriving Repr

def Failure.message : Failure → String
  | .listen error => error.message
  | .path error => error.message
  | .address error => error.message
  | .connect error => error.message
  | .command error => error.message
  | .listener error => error.message
  | .system error => error.message

inductive WireEvent where
  | connected
  | sent (count : Nat)
  | shut
  | closed
  | ended
  | quiet
  deriving DecidableEq, Repr

inductive Result where
  | nothing
  | pending
  | returned
  | accepted (connection : Nat) (isOpen : Bool)
  | handled
  | released
  | live (answer : Bool)
  | mode (bits : Int)
  | sent (result : SendResult)
  | wire (event : WireEvent)
  | failed (failure : Failure)
  deriving Repr

def Result.ofOutcome : Outcome → Result
  | .returned => .returned
  | .accepted connection isOpen => .accepted connection isOpen
  | .handled => .handled
  | .released => .released
  | .refused error => .failed (.listener error)

variable {σ : Type} [Outlet σ]

def resultOf {α : Type} (wrap : α → Failure) : Option α → Result
  | none => .nothing
  | some error => .failed (wrap error)

def sendResultOf : Except CommandError SendResult → Result
  | .ok result => .sent result
  | .error error => .failed (.command error)

def isLive (session : Session σ) (path : String) : Session σ × Result :=
  match Address.dial session.tree path with
  | .ok listener => (session.probe listener, .live true)
  | .error cause =>
      (session, if cause.meansNobody then .live false else .failed (.address cause))

def modeOf (session : Session σ) (path : String) : Result :=
  if Path.hasNul path then .failed (.path .embeddedNul)
  else match session.tree.lookup true path with
    | .ok found => .mode found.2.mode
    | .error number => .failed (.path (.system ⟨number, some path⟩))

def onWire (session : Session σ) (name : String)
    (operation : Wire → Session σ × Result) : Session σ × Result :=
  match session.wires.lookup name with
  | some wire => operation wire
  | none => (session, .nothing)

def writeWire (session : Session σ) (bytes : List UInt8) (wire : Wire) : Session σ × Result :=
  if session.wireWrites wire then
    (session.deliver wire.peer bytes, .wire (.sent bytes.length))
  else (session, .failed (.system ⟨SystemError.brokenPipe, none⟩))

def perform (session : Session σ) (task : Nat) : Step → Session σ × Result
  | .listen index =>
      let (next, error) := session.listen index
      (next, resultOf Failure.listen error)
  | .stop index =>
      let (next, error) := session.stop index
      (next, resultOf Failure.path error)
  | .start index duty =>
      (session.onServer index fun server => server.startTask session.now task duty, .pending)
  | .inject index bytes ending closeFails =>
      (session.onServer index fun server => server.arrive session.now
        { id := 0, unread := bytes, ending := ending, scripted := true, closeFails := closeFails,
          task := some task }, .pending)
  | .advance seconds => (session.advance seconds, .nothing)
  | .isLive path => session.isLive path
  | .modeOf path => (session, session.modeOf path)
  | .connect name path =>
      let (next, error) := session.connect name path
      (next, resultOf Failure.connect error)
  | .reconnect name =>
      let (next, error) := session.reconnect name
      (next, resultOf Failure.connect error)
  | .closeClient name => (session.closeClient name, .nothing)
  | .send name command =>
      let (next, result) := session.send name command
      (next, sendResultOf result)
  | .sendValue name value =>
      let (next, result) := session.sendValue name value
      (next, sendResultOf result)
  | .sendText name text =>
      let (next, result) := session.sendText name text
      (next, sendResultOf result)
  | .openWire name path =>
      match session.openWire name path with
      | (next, none) => (next, .wire .connected)
      | (next, some cause) => (next, .failed (.address cause))
  | .writeWire name bytes => session.onWire name fun wire => session.writeWire bytes wire
  | .endWire name => session.onWire name fun wire => (session.endWire name wire, .wire .shut)
  | .closeWire name =>
      session.onWire name fun wire => (session.closeWire name wire, .wire .closed)
  | .readWire name =>
      session.onWire name fun wire =>
        (session, .wire (if session.isOpen wire.peer then .quiet else .ended))

structure Report where
  result : Result
  finished : List (Nat × Outcome)
  records : List Journal.Record
  deriving Repr

/-- One step, with its number as the name of the task it may start. Outcomes of earlier tasks are
reported in the order of their steps. -/
def step (session : Session σ) (task : Nat) (request : Step) : Session σ × Report :=
  let (next, result) := { session with records := [], finished := [] }.perform task request
  let result :=
    match next.finished.lookup task with
    | some outcome => .ofOutcome outcome
    | none => result
  let others := (next.finished.filter fun entry => entry.1 != task).mergeSort
    fun first second => first.1 ≤ second.1
  (next, ⟨result, others, next.records⟩)

def run (session : Session σ) (start : Nat) : List Step → Session σ × List Report
  | [] => (session, [])
  | request :: rest =>
      let (next, report) := session.step start request
      let (last, reports) := next.run (start + 1) rest
      (last, report :: reports)

end SteeringChannel.Session
