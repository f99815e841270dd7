import SteeringChannel.Client
import SteeringChannel.Server

/-!
A session: servers, clients and bare sockets that meet over one file system, on one clock. What an
operation writes to the journal is gathered in the order in which it is written.
-/

namespace SteeringChannel

inductive BindError where
  | notASocket (path : String)
  | uncheckable (path : String) (cause : Address.Failure)
  | alreadyBound (path : String)
  | unbindable (path : String) (cause : Address.Failure)
  deriving DecidableEq, Repr

def BindError.message : BindError → String
  | .notASocket path => path ++ " exists and is not a socket"
  | .uncheckable path cause => "Cannot check " ++ path ++ ": " ++ cause.message
  | .alreadyBound path => path ++ " is already bound by a running server"
  | .unbindable path cause => "Cannot bind " ++ path ++ ": " ++ cause.message

inductive ListenError where
  | bind (error : BindError)
  | path (error : PathError)
  | modeOutOfRange
  deriving DecidableEq, Repr

def ListenError.message : ListenError → String
  | .bind error => error.message
  | .path error => error.message
  | .modeOutOfRange => "Python int too large to convert to C int"

structure Wire where
  peer : Peer
  shut : Bool := false
  deriving DecidableEq, Repr

structure Session (σ : Type) where
  tree : Filesystem := .empty
  now : Rat := 0
  modeFailure : Option Int := none
  servers : List (Server σ) := []
  clients : List (String × Client) := []
  wires : List (String × Wire) := []
  records : List Journal.Record := []
  finished : List (Nat × Outcome) := []
  deriving Repr

namespace Session

variable {σ : Type}

def note (session : Session σ) (record : Journal.Record) : Session σ :=
  { session with records := session.records ++ [record] }

def server? (session : Session σ) (index : Nat) : Option (Server σ) := session.servers[index]?

def addServer (session : Session σ) (server : Server σ) : Session σ :=
  { session with servers := session.servers ++ [server] }

def onServer (session : Session σ) (index : Nat) (change : Server σ → Server σ) : Session σ :=
  match session.server? index with
  | none => session
  | some server =>
      let changed := change server
      { session with
        servers := session.servers.set index changed.reported
        records := session.records ++ changed.records
        finished := session.finished ++ changed.finished }

section Traffic

variable [Outlet σ]

def peerOf (session : Session σ) : Address.Listener → Peer
  | .unattended => .unattended
  | .server index =>
      match session.server? index with
      | some server => .server index server.nextId
      | none => .unattended

def arrive (session : Session σ) (listener : Address.Listener) (arrival : Connection) :
    Session σ :=
  match listener with
  | .unattended => session
  | .server index => session.onServer index fun server => server.arrive session.now arrival

def isOpen (session : Session σ) : Peer → Bool
  | .unattended => true
  | .server index id =>
      match session.server? index with
      | some server => server.isOpen id
      | none => false

def deliver (session : Session σ) (peer : Peer) (bytes : List UInt8) : Session σ :=
  match peer with
  | .unattended => session
  | .server index id => session.onServer index fun server => server.deliver session.now id bytes

def hangUp (session : Session σ) (peer : Peer) : Session σ :=
  match peer with
  | .unattended => session
  | .server index id => session.onServer index fun server =>
      server.hangUp session.now id .finished

def probe (session : Session σ) (listener : Address.Listener) : Session σ :=
  session.arrive listener { id := 0, ending := some .finished }

def removedRecord (path : String) : Journal.Record :=
  Connection.record Journal.info ("Removed stale socket " ++ path)

def listeningRecord (path : String) : Journal.Record :=
  Connection.record Journal.info ("Control socket listening at " ++ path)

def modeFailureRecord (path : String) (error : SystemError) : Journal.Record :=
  Connection.record Journal.warning ("Could not chmod " ++ path ++ ": " ++ error.message)

def clearStale (session : Session σ) (path : String) : Session σ × Option ListenError :=
  if Path.hasNul path then (session, some (.path .embeddedNul))
  else match session.tree.nodeAt path with
    | .error number =>
        if number = SystemError.notFound then (session, none)
        else (session, some (.path (.system ⟨number, some path⟩)))
    | .ok node =>
        if !node.isSocket then (session, some (.bind (.notASocket path)))
        else match Address.dial session.tree path with
          | .ok listener => (session.probe listener, some (.bind (.alreadyBound path)))
          | .error cause =>
              if !cause.meansNobody then (session, some (.bind (.uncheckable path cause)))
              else match session.tree.unlink path with
                | .ok tree => ({ session with tree := tree }.note (removedRecord path), none)
                | .error number => (session, some (.path (.system ⟨number, some path⟩)))

def uncheckedRecord (path : String) (number : Int) : Journal.Record :=
  { level := Journal.error
    source := Journal.Source.transport
    message := "Unable to check or remove stale UNIX socket " ++ Text.quote path ++ ": " ++
      SystemError.kind number ++ "(" ++ toString number ++ ", " ++
      Text.quote (SystemError.description number) ++ ")" }

/-- The check that comes with binding: a socket that the path leads to is removed. -/
def clearAddress (session : Session σ) (path : String) : Session σ :=
  let failed (number : Int) : Session σ :=
    if number = SystemError.notFound then session
    else session.note (uncheckedRecord path number)
  match session.tree.target path with
  | .error number => failed number
  | .ok node =>
      if !node.isSocket then session
      else match session.tree.unlink path with
        | .ok tree => { session with tree := tree }
        | .error number => failed number

def wordBound : Int := twoTo 31

def setMode (session : Session σ) (path : String) (mode : Int) :
    Session σ × Option ListenError :=
  match session.modeFailure with
  | some number => (session.note (modeFailureRecord path ⟨number, some path⟩), none)
  | none =>
      if mode < -wordBound || wordBound ≤ mode then (session, some .modeOutOfRange)
      else match session.tree.changeMode path (mode % 4096) with
        | .ok tree => ({ session with tree := tree }, none)
        | .error number => (session.note (modeFailureRecord path ⟨number, some path⟩), none)

/-- Binds the address and listens. An error after the binding leaves the server listening. -/
def bindAddress (session : Session σ) (index : Nat) (path : String) (mode : Int) :
    Session σ × Option ListenError :=
  match Address.bind session.tree path index with
  | .error cause => (session, some (.bind (.unbindable path cause)))
  | .ok tree =>
      let listening := { session with tree := tree }.onServer index Server.listen
      match listening.setMode path mode with
      | (settled, some error) => (settled, some error)
      | (settled, none) => (settled.note (listeningRecord path), none)

def listen (session : Session σ) (index : Nat) : Session σ × Option ListenError :=
  match session.server? index with
  | none => (session, none)
  | some server =>
      match session.clearStale (Path.normalize server.path) with
      | (cleared, some error) => (cleared, some error)
      | (cleared, none) =>
          (cleared.clearAddress server.path).bindAddress index server.path server.mode

def removeAddress (session : Session σ) (path : String) : Session σ × Option PathError :=
  if Path.hasNul path then (session, none)
  else match session.tree.leadsSomewhere path with
    | .error number => (session, some (.system ⟨number, some path⟩))
    | .ok false => (session, none)
    | .ok true =>
        match session.tree.unlink path with
        | .ok tree => ({ session with tree := tree }, none)
        | .error number => (session, some (.system ⟨number, some path⟩))

def stop (session : Session σ) (index : Nat) : Session σ × Option PathError :=
  match session.server? index with
  | none => (session, none)
  | some server =>
      let tree := if server.listening then session.tree.retire index else session.tree
      let stopped := { session with tree := tree }.onServer index Server.stop
      stopped.removeAddress (Path.normalize server.path)

def defaultPath : String := "swi.sock"

def client (session : Session σ) (name path : String) : Client :=
  (session.clients.lookup name).getD { path := path }

def setClient (session : Session σ) (name : String) (client : Client) : Session σ :=
  { session with
    clients := (name, client) :: session.clients.filter fun entry => entry.1 != name }

/-- Opens a new connection; one that is still open is left to itself. -/
def connectClient (session : Session σ) (name : String) (client : Client) :
    Session σ × Option ConnectError :=
  match Address.dial session.tree client.path with
  | .error cause => (session.setClient name client, some ⟨client.path, cause⟩)
  | .ok listener =>
      let linked := session.setClient name
        { client with link := some { peer := session.peerOf listener } }
      ((linked.note client.connectedRecord).arrive listener { id := 0 }, none)

def connect (session : Session σ) (name path : String) : Session σ × Option ConnectError :=
  session.connectClient name (session.client name path)

def closeClient (session : Session σ) (name : String) : Session σ :=
  let client := session.client name defaultPath
  match client.link with
  | none => session.setClient name client
  | some link =>
      let closed := session.setClient name { client with link := none }
      if link.broken then closed.note Client.closeFailureRecord else closed.hangUp link.peer

/-- The first half of closing a connection on the way to a new one: the server sees the end of the
stream, and without a time limit on its reads it also takes the next in its queue. -/
def leaveForAnother (session : Session σ) (link : Link) : Session σ :=
  if link.broken then session.note Client.closeFailureRecord
  else match link.peer with
    | .unattended => session
    | .server index id => session.onServer index fun server =>
        let ended := server.endStream session.now id .finished
        if server.timeout.isSome then ended else ended.settleFirst session.now

def settleServers (session : Session σ) : Session σ :=
  (List.range session.servers.length).foldl
    (fun session index => session.onServer index fun server => server.settle session.now) session

def leaveLink (session : Session σ) (client : Client) : Session σ :=
  match client.link with
  | none => session
  | some link => session.leaveForAnother link

def reconnect (session : Session σ) (name : String) : Session σ × Option ConnectError :=
  let client := session.client name defaultPath
  let (connected, error) :=
    (session.leaveLink client).connectClient name { client with link := none }
  (connected.settleServers, error)

def transmit (session : Session σ) (name : String) (client : Client) (link : Link)
    (command : Command) : Session σ × Except CommandError SendResult :=
  let warned := (Client.ambiguityRecord? command).toList.foldl note session
  match command.encode with
  | .error error => (warned, .error error)
  | .ok byte =>
      if session.isOpen link.peer then
        (warned.deliver link.peer [byte], .ok { ok := true, command := some command })
      else
        ((warned.setClient name { client with link := some { link with broken := true } }).note
            (Client.sendFailureRecord command),
          .ok { ok := false, command := some command, error := some Client.connectionLost })

def send (session : Session σ) (name : String) (command : Command) :
    Session σ × Except CommandError SendResult :=
  let client := session.client name defaultPath
  let session := session.setClient name client
  match client.link with
  | some link =>
      if link.broken then
        (session, .ok { ok := false, command := some command, error := some Client.notConnected })
      else session.transmit name client link command
  | none =>
      (session, .ok { ok := false, command := some command, error := some Client.notConnected })

def sendValue (session : Session σ) (name : String) (value : Int) :
    Session σ × Except CommandError SendResult :=
  match Command.set value with
  | .error error => (session, .ok { ok := false, error := some error.message })
  | .ok command => session.send name command

def sendText (session : Session σ) (name text : String) :
    Session σ × Except CommandError SendResult :=
  match parseValue text with
  | .error error => (session, .ok { ok := false, error := some error.message })
  | .ok value => session.sendValue name value

def setWire (session : Session σ) (name : String) (wire : Wire) : Session σ :=
  { session with wires := (name, wire) :: session.wires.filter fun entry => entry.1 != name }

def dropWire (session : Session σ) (name : String) : Session σ :=
  { session with wires := session.wires.filter fun entry => entry.1 != name }

def openWire (session : Session σ) (name path : String) : Session σ × Option Address.Failure :=
  match Address.dial session.tree path with
  | .error cause => (session, some cause)
  | .ok listener =>
      let opened := (session.setWire name { peer := session.peerOf listener }).arrive listener
        { id := 0 }
      match session.wires.lookup name with
      | some before => (opened.hangUp before.peer, none)
      | none => (opened, none)

def wireWrites (session : Session σ) (wire : Wire) : Bool :=
  !wire.shut && session.isOpen wire.peer

def endWire (session : Session σ) (name : String) (wire : Wire) : Session σ :=
  (session.setWire name { wire with shut := true }).hangUp wire.peer

def closeWire (session : Session σ) (name : String) (wire : Wire) : Session σ :=
  (session.dropWire name).hangUp wire.peer

def dueHandlers (session : Session σ) (now : Rat) : List (Nat × Handler) :=
  let due := (List.range session.servers.length).flatMap fun index =>
    match session.server? index with
    | none => []
    | some server => (server.handlers.filter (server.isDue now)).filterMap fun handler =>
        (server.deadline? handler).map fun deadline => (deadline, index, handler)
  (due.mergeSort fun first second => first.1 ≤ second.1).map Prod.snd

/-- The clock jumps once: everything that is due is closed first, and then left. -/
def advance (session : Session σ) (seconds : Rat) : Session σ :=
  let now := session.now + seconds
  let due := session.dueHandlers now
  let closed := due.foldl (fun session entry =>
    session.onServer entry.1 fun server => server.expire now entry.2) { session with now := now }
  due.foldl (fun session entry =>
    session.onServer entry.1 fun server => server.leaveExpired now entry.2) closed

end Traffic

end Session
end SteeringChannel
