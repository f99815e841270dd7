import SteeringChannel.Proofs.Server.Availability
import SteeringChannel.Proofs.Server.Exclusion
import SteeringChannel.Proofs.Session.Reopening

/-!
What a client is told and what the server does. A send is answered with success exactly when its
command has been applied by then, however connections are refused, time out or are stopped.
-/

namespace SteeringChannel

namespace Command

def IsSent (command : Command) : Prop :=
  command = start ∨ command = stop ∨ ∃ value, set value = .ok command

/-- The command that the receiver takes a command for. -/
def received (command : Command) : Command :=
  if command = ⟨.set, some startByte⟩ then start
  else if command = ⟨.set, some stopByte⟩ then stop
  else command

theorem set_eq_ok {value : Int} {command : Command} (sets : set value = .ok command) :
    0 ≤ value ∧ value ≤ 255 ∧ command = ⟨.set, some value⟩ := by
  unfold set at sets
  split at sets
  next bounds => exact ⟨bounds.1, bounds.2, (Except.ok.inj sets).symm⟩
  next => simp at sets

theorem encode_set {value : Int} (within : 0 ≤ value ∧ value ≤ 255) :
    ∃ byte : UInt8, (byte.toNat : Int) = value ∧ encode ⟨.set, some value⟩ = .ok byte := by
  refine ⟨UInt8.ofNat value.toNat, ?_, if_pos within⟩
  rw [UInt8.toNat_ofNat']
  omega

theorem ofByte_encode {command : Command} (sent : command.IsSent) {byte : UInt8}
    (encoded : command.encode = .ok byte) : ofByte byte = command.received := by
  rcases sent with rfl | rfl | ⟨value, sets⟩
  · obtain rfl := Except.ok.inj encoded
    decide
  · obtain rfl := Except.ok.inj encoded
    decide
  · obtain ⟨low, high, rfl⟩ := set_eq_ok sets
    obtain ⟨sent, whole, also⟩ := encode_set ⟨low, high⟩
    obtain rfl : sent = byte := Except.ok.inj (also.symm.trans encoded)
    simp only [ofByte, whole, received, Command.mk.injEq, Option.some.injEq, true_and]

end Command

namespace Server

variable {σ : Type} [Outlet σ] {server other : Server σ}

theorem Reaches.nothing (reaches : server.Reaches other) (coherent : server.Coherent)
    (unread : ∀ id, server.unread id = []) :
    ∃ moves, Run nobody server moves other ∧ Move.dispatched moves = [] ∧
      ∀ id, other.unread id = [] := by
  obtain ⟨moves, run, silent⟩ := reaches.run nobody
  refine ⟨moves, run, ?_⟩
  clear reaches
  induction run with
  | still => exact ⟨rfl, unread⟩
  | @move moves server next run fits ih =>
      obtain ⟨nothing, unread⟩ := ih fun move member => silent move (List.mem_append_left _ member)
      have quietly := silent next (List.mem_append_right _ (List.mem_singleton.mpr rfl))
      have numbered := (run.coherent coherent).numbered
      rw [Move.dispatched_append, nothing, List.nil_append]
      by_cases quiet : next.isQuiet = true
      · refine ⟨?_, fun id => ?_⟩
        · cases next <;> first | rfl | simp [Move.isQuiet] at quiet
        · exact (server.sameStream_perform quiet id).unread.trans (unread id)
      · cases next with
        | arrive arrival =>
            refine ⟨rfl, fun id => ?_⟩
            rw [perform, unread_register numbered]
            split
            · exact quietly
            · exact unread id
        | consume now id bytes =>
            have empty : bytes = [] := List.prefix_nil.mp (unread id ▸ fits.2)
            refine ⟨by simp [Move.dispatched, empty], fun other => ?_⟩
            rw [perform, unread_consume, unread, List.drop_nil, ite_self]
        | receive id bytes => exact quietly.elim
        | finish id ending => exact ⟨rfl, fun other => by simpa [perform] using unread other⟩
        | conclude id ending => exact ⟨rfl, fun other => by simpa [perform] using unread other⟩
        | giveUp now id => exact ⟨rfl, fun other => by simpa [perform] using unread other⟩
        | shut id => exact ⟨rfl, fun other => by simpa [perform] using unread other⟩
        | _ => simp [Move.isQuiet] at quiet

omit [Outlet σ] in
theorem Settled.reads_open {task id : Nat} (settled : server.Settled) (coherent : server.Coherent)
    (looped : server.Looped) (present : server.stopped = false → server.Present [task])
    (exclusive : server.Exclusive) (opened : server.isOpen id = true) :
    id ∈ server.handlers.map Handler.connection := by
  rcases coherent.openAdmitted id opened with queued | handed
  · exfalso
    have waits := (coherent.queued id).mpr queued
    have busy : server.queue ≠ [] := List.ne_nil_of_mem waits
    have running : server.stopped = false := by
      cases stopped : server.stopped with
      | false => rfl
      | true => exact absurd (settled.attentive.drained stopped) busy
    have loop := (present running).loop
    rw [settled.calm.resolve_left busy, List.map_nil, List.nil_append] at loop
    obtain ⟨handler, handlers, _⟩ := List.map_eq_singleton_iff.mp loop
    have reads : handler ∈ server.handlers := by simp [handlers]
    have awaits := (settled.attentive.awaits handler reads).resolve_left not_false
    -- The slot belongs to both, but the one is read and the other waits in the queue.
    have slot := exclusive handler.connection (Or.inl awaits.isOpen)
    rw [exclusive id (Or.inl opened)] at slot
    have handled := List.mem_map_of_mem (f := Handler.connection) reads
    rw [← Option.some.inj slot] at handled
    exact coherent.handled_unqueued handled waits
  · exact looped.handled id handed

theorem readIfHandled_eq {reader : Handler} (reads : reader ∈ server.handlers)
    (awaits : server.Awaits reader.connection) (now : Rat) (bytes : List UInt8) :
    (server.receive reader.connection bytes).readIfHandled now reader.connection =
      (server.receive reader.connection bytes).consume now reader.connection bytes := by
  have arrived : (server.receive reader.connection bytes).unread reader.connection = bytes := by
    rw [unread_receive, if_pos ⟨rfl, awaits.isOpen, awaits.ending⟩, awaits.unread, List.nil_append]
  have opened : (server.receive reader.connection bytes).isOpen reader.connection = true := by
    rw [isOpen_receive, awaits.isOpen]
  have lasts : (server.receive reader.connection bytes).ending? reader.connection = none := by
    rw [ending?_receive, awaits.ending]
  simp only [readIfHandled]
  cases found : (server.receive reader.connection bytes).handler? reader.connection with
  | none =>
      have unmatched := List.find?_eq_none.mp found reader reads
      simp at unmatched
  | some handler =>
      obtain ⟨_, same⟩ := handler?_mem found
      dsimp only
      rw [← same] at arrived opened lasts ⊢
      cases there : (server.receive handler.connection bytes).connection? handler.connection with
      | none => simp [isOpen_eq, there] at opened
      | some connection =>
          simp only [unread, there, Option.map_some, Option.getD_some] at arrived
          simp only [ending?, there, Option.bind_some] at lasts
          rcases read_cases now there with ⟨never, _⟩ | ⟨_, ending, ends, _⟩ | ⟨_, _, shape⟩
          · have waits : (server.receive handler.connection bytes).neverWaits = false :=
              (neverWaits_congr rfl).trans awaits.waits
            simp [waits] at never
          · simp [lasts] at ends
          · rw [shape, arrived]

theorem Settled.dispatches {id : Nat} (settled : server.Settled) (coherent : server.Coherent)
    (unread : ∀ id, server.unread id = [])
    (handled : id ∈ server.handlers.map Handler.connection) (now : Rat) (bytes : List UInt8) :
    ∃ moves, Run nobody server moves (server.deliver now id bytes) ∧
      Move.dispatched moves = bytes ∧ ∀ other, (server.deliver now id bytes).unread other = [] := by
  obtain ⟨reader, reads, rfl⟩ := List.mem_map.mp handled
  have awaits := (settled.attentive.awaits reader reads).resolve_left not_false
  have arrived : (server.receive reader.connection bytes).unread reader.connection = bytes := by
    rw [unread_receive, if_pos ⟨rfl, awaits.isOpen, awaits.ending⟩, awaits.unread, List.nil_append]
  have shape := readIfHandled_eq reads awaits now bytes
  have received : Run nobody server [.receive reader.connection bytes]
      (server.receive reader.connection bytes) := Run.one (.receive reader.connection bytes) trivial
  have consumed : Run nobody server
      ([.receive reader.connection bytes] ++ [.consume now reader.connection bytes])
      ((server.receive reader.connection bytes).consume now reader.connection bytes) := by
    refine Run.move (.consume now reader.connection bytes) received ⟨handled, ?_⟩
    simp [arrived]
  have empty (other : Nat) : ((server.receive reader.connection bytes).consume now
      reader.connection bytes).unread other = [] := by
    rw [unread_consume]
    split
    next same => rw [same, arrived, List.drop_length]
    next different => rw [unread_receive, if_neg fun all => different all.1, unread]
  obtain ⟨moves, settles, nothing, after⟩ :=
    (reaches_settle _ now).nothing (consumed.coherent coherent) empty
  simp only [Server.deliver]
  rw [if_pos awaits.isOpen, shape]
  refine ⟨_, consumed.trans settles, ?_, after⟩
  rw [Move.dispatched_append, nothing]
  simp [Move.dispatched]

def opened (server : Server σ) (task : Nat) : Server σ := server.listen.await ⟨task, .serve⟩

omit [Outlet σ] in
theorem Fresh.opened_eq (fresh : server.Fresh) (task : Nat) :
    server.opened task = { server.listen with waiters := [⟨task, .serve⟩] } := by
  have listening : server.listen.isListening = true := by
    rw [fresh]
    rfl
  simp only [Server.opened, Server.await]
  rw [if_pos listening, fresh]
  rfl

omit [Outlet σ] in
theorem Fresh.opened_settled {task : Nat} (fresh : server.Fresh) :
    (server.opened task).Settled := by
  rw [fresh.opened_eq, fresh]
  exact ⟨⟨fun _ reads => absurd reads List.not_mem_nil, fun _ => rfl⟩, Or.inl rfl⟩

theorem Fresh.opens (fresh : server.Fresh) (task : Nat) :
    Run (singly task) server ([.listen] ++ [.await ⟨task, .serve⟩]) (server.opened task) := by
  refine Run.move (.await ⟨task, .serve⟩) (Run.one .listen trivial) ⟨rfl, ?_⟩
  rw [fresh]
  exact ⟨rfl, rfl, rfl⟩

theorem Fresh.served {start : Server σ} {task : Nat} {moves : List Move} (fresh : start.Fresh)
    (run : Run nobody (start.opened task) moves server) :
    server.Coherent ∧ server.Looped ∧ (server.stopped = false → server.Present [task]) := by
  have whole := (fresh.opens task).trans (run.mono fun _ _ => False.elim)
  obtain ⟨coherent, looped, tasks, present, started⟩ := whole.served fresh
  rw [started (by simp)] at present
  exact ⟨coherent, looped, present⟩

structure Tracks (start server : Server σ) (commands : List Command) : Prop where
  run : ∃ moves, Run nobody start moves server ∧
    (Move.dispatched moves).map Command.ofByte = commands
  unread : ∀ id, server.unread id = []
  settled : server.Settled

theorem Tracks.reaches {start : Server σ} {commands : List Command}
    (tracks : start.Tracks server commands) (coherent : server.Coherent)
    (reaches : server.Reaches other) (settled : other.Settled) : start.Tracks other commands := by
  obtain ⟨moves, run, applied⟩ := tracks.run
  obtain ⟨more, after, nothing, unread⟩ := reaches.nothing coherent tracks.unread
  refine ⟨⟨moves ++ more, run.trans after, ?_⟩, unread, settled⟩
  rw [Move.dispatched_append, nothing, List.append_nil, applied]

end Server

def Peer.isOf (index : Nat) : Peer → Bool
  | .server listener _ => listener == index
  | .unattended => false

namespace Session

variable {σ : Type} [Outlet σ] {session other : Session σ} {index : Nat}

def linksTo (session : Session σ) (index : Nat) (name : String) : Bool :=
  (session.client name defaultPath).link.any fun link => link.peer.isOf index

def Step.sender? : Step → Option String
  | .send name _ | .sendValue name _ | .sendText name _ => some name
  | _ => none

def Result.acknowledged : Result → List Command
  | .sent result => if result.ok then result.command.toList else []
  | _ => []

def acknowledgement (session : Session σ) (index : Nat) (request : Step) (answer : Result) :
    List Command :=
  match request.sender? with
  | some name => if session.linksTo index name then answer.acknowledged else []
  | none => []

/-- The commands of all sends to a server that are answered with success, in their order. -/
def acknowledged (session : Session σ) (index start : Nat) : List Step → List Command
  | [] => []
  | request :: rest =>
      let cleared := { session with records := [], finished := [] }
      let (next, answer) := cleared.perform start request
      cleared.acknowledgement index request answer ++ next.acknowledged index (start + 1) rest

/-- What clients do, and what may happen around them. Bytes come to the server only from clients
that send commands. -/
def Step.isClients (index : Nat) : Step → Prop
  | .send _ command => command.IsSent
  | .sendValue _ _ | .sendText _ _ => True
  | request => request.isSilent index

def Follows (session : Session σ) (index : Nat) (start : Server σ) (commands : List Command) :
    Prop :=
  session.Has index fun server => start.Tracks server commands

section Sends

variable {origin : Server σ} {task : Nat} {commands : List Command} (fresh : origin.Fresh)
  (rejecting : origin.rejecting = true)

theorem Follows.same {start : Server σ} (follows : session.Follows index start commands)
    (servers : other.servers = session.servers) : other.Follows index start commands :=
  Has.same follows servers

include fresh in
theorem Follows.silent (follows : session.Follows index (origin.opened task) commands)
    (number : Nat) {request : Step} (silent : request.isSilent index) :
    (session.perform number request).1.Follows index (origin.opened task) commands := by
  obtain ⟨server, found, tracks⟩ := follows
  obtain ⟨moves, run, _⟩ := tracks.run
  obtain ⟨coherent, _, _⟩ := fresh.served run
  have holds : session.Holds index server Server.Settled :=
    ⟨server, found, Server.Reaches.refl server, tracks.settled⟩
  obtain ⟨next, there, reaches, settled⟩ := holds.perform coherent number silent
  exact ⟨next, there, tracks.reaches coherent reaches settled⟩

include fresh rejecting in
/-- A byte that is sent on an open connection is applied at once. -/
theorem Follows.deliver (follows : session.Follows index (origin.opened task) commands) {id : Nat}
    (opened : session.isOpen (.server index id) = true) (byte : UInt8) :
    (session.deliver (.server index id) [byte]).Follows index (origin.opened task)
      (commands ++ [Command.ofByte byte]) := by
  obtain ⟨server, found, tracks⟩ := follows
  obtain ⟨moves, run, applied⟩ := tracks.run
  obtain ⟨coherent, looped, present⟩ := fresh.served run
  have exclusive : server.Exclusive := by
    have opens : (origin.opened task).rejecting = true ∧ (origin.opened task).Exclusive := by
      rw [fresh.opened_eq]
      exact ⟨rejecting, fresh.exclusive⟩
    exact run.exclusive ((fresh.opens task).coherent fresh.coherent) opens.1 opens.2
  simp only [Session.isOpen, found] at opened
  have handled := tracks.settled.reads_open coherent looped present exclusive opened
  obtain ⟨more, delivers, dispatched, unread⟩ :=
    tracks.settled.dispatches coherent tracks.unread handled session.now [byte]
  refine ⟨(server.deliver session.now id [byte]).reported, ?_, ?_⟩
  · simp only [Session.deliver]
    rw [server?_onServer, if_pos rfl, found, Option.map_some]
  · have reported : Server.Run Server.nobody (server.deliver session.now id [byte]) [.report]
        (server.deliver session.now id [byte]).reported := Server.Run.one .report trivial
    refine ⟨⟨_, (run.trans delivers).trans reported, ?_⟩, unread, ?_⟩
    · rw [Server.Move.dispatched_append, Server.Move.dispatched_append, dispatched]
      simp [Server.Move.dispatched, applied]
    · exact (tracks.settled.deliver coherent session.now id [byte]).reported

omit [Outlet σ] in
theorem isOpen_congr (servers : other.servers = session.servers) (peer : Peer) :
    other.isOpen peer = session.isOpen peer := by
  cases peer with
  | unattended => rfl
  | server listener id =>
      simp only [Session.isOpen, server?]
      rw [servers]

include fresh rejecting in
theorem Follows.transmit (follows : session.Follows index (origin.opened task) commands)
    {command : Command} (sent : command.IsSent) (name : String) (client : Client) (link : Link) :
    (session.transmit name client link command).1.Follows index (origin.opened task)
      (commands ++ (if link.peer.isOf index then
        (sendResultOf (session.transmit name client link command).2).acknowledged
          else []).map Command.received) := by
  have servers := servers_foldl_note (Client.ambiguityRecord? command).toList session
  simp only [Session.transmit]
  generalize (Client.ambiguityRecord? command).toList.foldl note session = warned at servers ⊢
  cases encoded : command.encode with
  | error error =>
      simpa [sendResultOf, Result.acknowledged] using follows.same servers
  | ok byte =>
      dsimp only
      split
      next opened =>
        rw [← isOpen_congr servers] at opened
        cases peer : link.peer with
        | unattended => simpa [Peer.isOf, Session.deliver] using follows.same servers
        | server listener id =>
            by_cases same : listener = index
            · rw [peer, same] at opened
              have delivered := (follows.same servers).deliver fresh rejecting opened byte
              rw [Command.ofByte_encode sent encoded] at delivered
              simpa [same, Peer.isOf, sendResultOf, Result.acknowledged] using delivered
            · obtain ⟨server, found, tracks⟩ := follows.same servers
              refine ⟨server, ?_, by simpa [same, Peer.isOf] using tracks⟩
              simp only [Session.deliver]
              rw [server?_onServer, if_neg same, found]
      next =>
        have refused : ((warned.setClient name
            { client with link := some { link with broken := true } }).note
              (Client.sendFailureRecord command)).Follows index (origin.opened task) commands :=
          follows.same servers
        simpa [sendResultOf, Result.acknowledged] using refused

include fresh rejecting in
theorem Follows.send (follows : session.Follows index (origin.opened task) commands)
    {command : Command} (sent : command.IsSent) (name : String) :
    (session.send name command).1.Follows index (origin.opened task)
      (commands ++ (if session.linksTo index name then
        (sendResultOf (session.send name command).2).acknowledged else []).map
          Command.received) := by
  have named : (session.setClient name (session.client name defaultPath)).Follows index
      (origin.opened task) commands := follows.same rfl
  unfold Session.send linksTo
  dsimp only
  cases linked : (session.client name defaultPath).link with
  | none => simpa using named
  | some link =>
      dsimp only
      split
      · simpa [sendResultOf, Result.acknowledged] using named
      · exact named.transmit fresh rejecting sent name _ link

include fresh rejecting in
theorem Follows.sendValue (follows : session.Follows index (origin.opened task) commands)
    (name : String) (value : Int) :
    (session.sendValue name value).1.Follows index (origin.opened task)
      (commands ++ (if session.linksTo index name then
        (sendResultOf (session.sendValue name value).2).acknowledged else []).map
          Command.received) := by
  simp only [Session.sendValue]
  cases sets : Command.set value with
  | error error => simpa [sendResultOf, Result.acknowledged] using follows
  | ok command => exact follows.send fresh rejecting (Or.inr (Or.inr ⟨value, sets⟩)) name

include fresh rejecting in
theorem Follows.sendText (follows : session.Follows index (origin.opened task) commands)
    (name text : String) :
    (session.sendText name text).1.Follows index (origin.opened task)
      (commands ++ (if session.linksTo index name then
        (sendResultOf (session.sendText name text).2).acknowledged else []).map
          Command.received) := by
  simp only [Session.sendText]
  cases parseValue text with
  | error error => simpa [sendResultOf, Result.acknowledged] using follows
  | ok value => exact follows.sendValue fresh rejecting name value

include fresh rejecting in
theorem Follows.perform (follows : session.Follows index (origin.opened task) commands)
    (number : Nat) {request : Step} (clients : request.isClients index) :
    (session.perform number request).1.Follows index (origin.opened task)
      (commands ++ (session.acknowledgement index request
        (session.perform number request).2).map Command.received) := by
  cases request with
  | send name command => exact follows.send fresh rejecting clients name
  | sendValue name value => exact follows.sendValue fresh rejecting name value
  | sendText name text => exact follows.sendText fresh rejecting name text
  | _ =>
      simp only [acknowledgement, Step.sender?, List.map_nil, List.append_nil]
      exact follows.silent fresh number clients

include fresh rejecting in
theorem Follows.run (follows : session.Follows index (origin.opened task) commands) (number : Nat)
    {requests : List Step} (clients : ∀ request ∈ requests, request.isClients index) :
    (session.run number requests).1.Follows index (origin.opened task)
      (commands ++ (session.acknowledged index number requests).map Command.received) := by
  induction requests generalizing session number commands with
  | nil => simpa [Session.run, acknowledged] using follows
  | cons request rest ih =>
      have cleared : Follows { session with records := [], finished := [] } index
        (origin.opened task) commands := follows.same rfl
      have performed := cleared.perform fresh rejecting number
        (clients request List.mem_cons_self)
      have last := ih performed (number + 1) fun later member =>
        clients later (List.mem_cons_of_mem request member)
      rw [List.append_assoc, ← List.map_append] at last
      exact last

end Sends

/-- A server that listens and then starts to serve is one that serves from the start. -/
theorem server?_run_opening {index : Nat} {server : Server σ} (fresh : server.Fresh)
    (found : session.server? index = some server)
    (listens : ({ session with records := [], finished := [] }.listen index).2 = none)
    (number : Nat) :
    (session.run number [.listen index, .start index .serve]).1.server? index =
      some (server.opened (number + 1)) := by
  cases result : { session with records := [], finished := [] }.listen index with
  | mk next error =>
    obtain rfl : error = none := by rwa [result] at listens
    have there : ({ session with records := [], finished := [] } : Session σ).server? index =
        some server := found
    obtain ⟨listening, _⟩ := listen_listens there result
    have starts : (session.run number [.listen index, .start index .serve]).1 =
        ({ next with records := [], finished := [] } : Session σ).onServer index fun server =>
          server.startTask next.now (number + 1) .serve := by
      simp [Session.run, Session.step, Session.perform, result]
    have again : ({ next with records := [], finished := [] } : Session σ).server? index =
        some server.listen.reported := listening
    rw [starts, server?_onServer, if_pos rfl, again, Option.map_some, fresh.opened_eq, fresh]
    rfl

/-- However clients connect, close and send, and however connections are refused, time out or are
stopped: what a rejecting server that serves from the start has dispatched is exactly what was sent
with success, in that order, read as the receiver reads it; and the state is what these commands
make of the first one. -/
theorem acknowledged_dispatched {index task : Nat} (number : Nat) {server : Server σ}
    (fresh : server.Fresh) (rejecting : server.rejecting = true)
    (serving : session.server? index = some (server.opened task)) {requests : List Step}
    (clients : ∀ request ∈ requests, request.isClients index) :
    ∃ moves later, (session.run number requests).1.server? index = some later ∧
      Server.Run Server.nobody (server.opened task) moves later ∧
      ((Server.Move.dispatched moves).mapM fun byte => Command.decode byte.toNat) =
        .ok ((session.acknowledged index number requests).map Command.received) ∧
      later.dispatcher.store.state =
        ((session.acknowledged index number requests).map Command.received).foldl
          RuntimeState.apply server.dispatcher.store.state ∧
      later.dispatcher.store.applied =
        server.dispatcher.store.applied + (session.acknowledged index number requests).length := by
  have follows : session.Follows index (server.opened task) [] := by
    refine ⟨server.opened task, serving, ⟨[], Server.Run.still, rfl⟩, ?_, fresh.opened_settled⟩
    rw [fresh.opened_eq, fresh]
    exact fun _ => rfl
  obtain ⟨later, found, tracks⟩ := follows.run fresh rejecting number clients
  obtain ⟨moves, run, applied⟩ := tracks.run
  rw [List.nil_append] at applied
  have store : later.dispatcher.store =
      ((Server.Move.dispatched moves).map Command.ofByte).foldl Store.apply
        server.dispatcher.store := by
    rw [run.dispatcher, Dispatcher.store_dispatchBytes, fresh.opened_eq]
    rfl
  rw [Store.foldl_apply, applied, List.length_map] at store
  refine ⟨moves, later, found, run, ?_, ?_, ?_⟩
  · rw [Command.mapM_decode, applied]
  · rw [store]
  · rw [store]

set_option maxRecDepth 8000 in
/-- Two clients at a server for one: the second is refused, the first sends a reserved value, and
after the stop nobody is heard. -/
theorem acknowledged_dispatched_two_clients :
    let server : Server Recorder := { path := "s" }
    let first : Session Recorder := { servers := [server], modeFailure := some 1 }
    let session := (first.run 0 [.listen 0, .start 0 .serve]).1
    let requests : List Step := [.connect "a" "s", .connect "b" "s", .send "b" Command.stop,
      .sendValue "a" 0x50, .stop 0, .send "a" Command.stop]
    server.Fresh ∧ server.rejecting = true ∧ session.server? 0 = some (server.opened 1) ∧
      (∀ request ∈ requests, request.isClients 0) ∧
      session.acknowledged 0 2 requests = [⟨.set, some 0x50⟩] ∧
      ∃ later, (session.run 2 requests).1.server? 0 = some later ∧
        later.dispatcher.store.state = { running := true } ∧
        later.dispatcher.store.applied = 1 := by
  intro server first session requests
  have fresh : server.Fresh := rfl
  have listens : (first.listen 0).2 = none := by
    simp only [first, server]
    decide
  have there : first.server? 0 = some server := rfl
  have serving : session.server? 0 = some (server.opened 1) :=
    server?_run_opening fresh there listens 0
  have clients : ∀ request ∈ requests, request.isClients 0 := by
    simp [requests, Step.isClients, Step.isSilent, Command.IsSent]
  have told : session.acknowledged 0 2 requests = [⟨.set, some 0x50⟩] := by
    simp only [session, first, server, requests]
    decide +kernel
  obtain ⟨moves, later, found, _, _, state, applied⟩ :=
    acknowledged_dispatched 2 fresh rfl serving clients
  rw [told] at state applied
  exact ⟨fresh, rfl, serving, clients, told, later, found, state, applied⟩

end Session
end SteeringChannel
