import SteeringChannel.Assembly
import SteeringChannel.Health
import SteeringChannel.Relay.Happening
import SteeringChannel.Session.Step

/-!
The control daemon: one server and its relay, from the checks at the start to the signal that
ends both. A relay that cannot start does not keep the server from serving.
-/

namespace SteeringChannel

namespace Daemon

inductive Failure where
  | path (error : PathError)
  | store (error : StoreError)
  | listen (error : ListenError)
  deriving DecidableEq, Repr

def Failure.message : Failure → String
  | .path error => error.message
  | .store error => error.message
  | .listen error => error.message

inductive Phase where
  | serving
  | ended (status : Nat)
  | failed (failure : Failure)
  | forced
  deriving DecidableEq, Repr

end Daemon

structure Daemon where
  session : Session Relay
  index : Nat
  phase : Daemon.Phase := .serving
  deriving Repr

namespace Daemon

def record (level : Int) (message : String) : Journal.Record :=
  { level := level, source := Journal.Source.root, message := message }

def abortRecord : Journal.Record :=
  record Journal.error "Critical health check failures, aborting startup"

def refusalRecord (error : BindError) : Journal.Record :=
  record Journal.error ("Cannot start control server: " ++ error.message)

def unavailableRecord (relay : Relay) (error : Relay.StartError) : Journal.Record :=
  record Journal.warning ("Relay " ++ relay.path ++
    " unavailable, commands will not be forwarded: " ++ error.message)

def shutdownRecord : Journal.Record := record Journal.info "Shutting down..."

def forcedRecord : Journal.Record := record Journal.warning "Forced exit"

def finalRecord (store : Store) : Journal.Record :=
  record Journal.info ("Final state: " ++ store.state.text ++ " (" ++ toString store.applied ++
    " commands applied)")

def eventRecord : Event → Journal.Record
  | .keyDown code => record Journal.info ("Subsystem key down: " ++ toString code.toNat)
  | .keyUp code => record Journal.info ("Subsystem key up: " ++ toString code.toNat)
  | .pinInput raw => record Journal.info ("Subsystem pin input: " ++ Text.quoteBytes raw)
  | .debugMessage text => record Journal.debug ("Subsystem " ++ text)

def note (daemon : Daemon) (records : List Journal.Record) : Daemon :=
  { daemon with session := records.foldl Session.note daemon.session }

def server? (daemon : Daemon) : Option (Server Relay) := daemon.session.server? daemon.index

def changeServer (daemon : Daemon) (change : Server Relay → Server Relay) : Daemon :=
  { daemon with session := daemon.session.onServer daemon.index change }

def store (daemon : Daemon) : Store :=
  match daemon.server? with
  | some server => server.dispatcher.store
  | none => {}

def relay? (daemon : Daemon) : Option Relay :=
  daemon.server?.bind fun server => server.dispatcher.outlet

def setRelay (daemon : Daemon) (relay : Relay) : Daemon :=
  daemon.changeServer fun server =>
    { server with dispatcher := { server.dispatcher with outlet := some relay } }

def changeRelay (daemon : Daemon) (change : Relay → Relay) : Daemon :=
  match daemon.relay? with
  | none => daemon
  | some relay =>
      let changed := change relay
      (daemon.setRelay changed).note ((changed.trace.since relay.trace).received.map eventRecord)

def trace (daemon : Daemon) : Relay.Trace :=
  match daemon.relay? with
  | some relay => relay.trace
  | none => {}

def fail (daemon : Daemon) (failure : Failure) : Daemon :=
  { daemon with
    session := { daemon.session with tree := daemon.session.tree.retire daemon.index }
    phase := .failed failure }

def startRelay (daemon : Daemon) : Daemon :=
  match daemon.relay? with
  | none => daemon
  | some relay =>
      let (started, records, error) := relay.start daemon.session.tree
      (daemon.setRelay started).note (records ++ (error.map (unavailableRecord relay)).toList)

def consumeEvents (daemon : Daemon) : Daemon :=
  match daemon.relay? with
  | some relay => if relay.isOpen then daemon.changeRelay Relay.consume else daemon
  | none => daemon

def serveTask : Nat := 0

def serve (daemon : Daemon) : Daemon :=
  daemon.changeServer fun server => server.startTask daemon.session.now serveTask .serve

def launch (daemon : Daemon) : Daemon :=
  match daemon.session.listen daemon.index with
  | (session, none) => { daemon with session := session }.startRelay.serve.consumeEvents
  | (session, some (.bind error)) =>
      { daemon with session := session.note (refusalRecord error), phase := .ended 1 }
  | (session, some error) => { daemon with session := session }.fail (.listen error)

/-- A daemon started in a session. Critical findings and an address that cannot be bound end it
before it has touched the relay. -/
def start (session : Session Relay) (denied : List String) (settings : Settings)
    (device : Relay.Device) : Daemon :=
  let daemon : Daemon := { session := session, index := session.servers.length }
  match Health.check { tree := session.tree, denied := denied } settings with
  | .error error => daemon.fail (.path error)
  | .ok findings =>
      let checked := daemon.note (Health.records findings)
      if Health.hasCriticalFailure findings then
        { checked.note [abortRecord] with phase := .ended 1 }
      else match Server.assemble settings device with
        | .error error => checked.fail (.store error)
        | .ok server =>
            launch { checked with session := checked.session.addServer server }

def stopRelay (daemon : Daemon) : Daemon :=
  match daemon.relay? with
  | none => daemon
  | some relay =>
      let (stopped, records) := relay.stop
      (daemon.setRelay stopped).note records

def shutDown (daemon : Daemon) : Daemon :=
  match (daemon.note [shutdownRecord]).session.stop daemon.index with
  | (session, some error) => { daemon with session := session }.fail (.path error)
  | (session, none) =>
      let stopped := { daemon with session := session }.stopRelay
      { stopped.note [finalRecord stopped.store] with phase := .ended 0 }

def force (daemon : Daemon) : Daemon :=
  { daemon.note [shutdownRecord, forcedRecord] with phase := .forced }

end Daemon
end SteeringChannel
