import SteeringChannel.Proofs.Daemon.Course
import SteeringChannel.Proofs.Dispatch.Trail
import SteeringChannel.Proofs.Server.Shutdown

/-!
The end of a daemon that one signal asks for, whenever it comes. The server closes whatever is open
and gives up its address, the relay lets go of its device, and the state that is reported is what
the bytes of the clients have made of the initial one, whatever the relay has done meanwhile.
-/

namespace SteeringChannel

namespace Server

variable {σ : Type} {origin server other : Server σ} {task : Nat}

theorem Mirrors.connections_eq {alike : Option σ → Option σ → Prop}
    (mirrors : Mirrors alike (fun id => id) [] server other) :
    other.connections = server.connections := by
  simpa using mirrors.connections.trans (map_renumber_id server.connections server.handlers).1

theorem Fresh.stop_rests [Outlet σ] (fresh : origin.Fresh) {moves : List Move}
    (run : Run nobody (origin.opened task) moves server) (settled : server.Settled) :
    server.stop.isListening = false ∧
    (∀ connection ∈ server.stop.connections, connection.isOpen = false) ∧
    let bytes := server.stop.connections.flatMap Connection.taken
    server.stop.dispatcher.store =
      ⟨(bytes.map Command.ofByte).foldl RuntimeState.apply origin.dispatcher.store.state,
        origin.dispatcher.store.applied + bytes.length⟩ := by
  obtain ⟨whole, served⟩ := fresh.whole run
  have coherent := served.coherent fresh.coherent
  obtain ⟨stops, _⟩ := settled.run_stop alone coherent
  have stopped := served.trans stops
  refine ⟨isListening_of_stopped server.stopped_stop, fun connection present => ?_,
    stopped.ledger fresh⟩
  have shut := (settled.stopping coherent).isOpen coherent connection.id
  have found := (stopped.coherent fresh.coherent).numbered.connection?_of_mem present
  simpa [isOpen_eq, found] using shut

end Server

namespace Session

variable {σ : Type} {session : Session σ}

theorem foldl_note_addServer (records : List Journal.Record) (session : Session σ)
    (server : Server σ) : (records.foldl note session).addServer server =
      records.foldl note (session.addServer server) := by
  induction records generalizing session with
  | nil => rfl
  | cons record rest ih => exact ih (session.note record)

theorem server?_addServer (session : Session σ) (server : Server σ) :
    (session.addServer server).server? session.servers.length = some server := by
  simp [server?, addServer]

end Session

namespace Daemon

variable {session bare rest : Session Relay} {denied : List String} {settings : Settings}
  {device : Relay.Device} {daemon : Daemon} {index : Nat} {grip : Option Relay.Grip}
  {origin : Server Relay}

def unrelayed (settings : Settings) : Server Relay :=
  .ofSettings settings { store := ⟨settings.initialState, 0⟩ }

def unrelayedStart (session : Session Relay) (settings : Settings) : Session Relay :=
  let listening := ((session.addServer (unrelayed settings)).listen session.servers.length).1
  listening.onServer session.servers.length fun server =>
    server.startTask listening.now serveTask .serve

structure Running (origin : Server Relay) (index : Nat) (session : Session Relay) : Prop where
  runs : session.Runs index Server.nobody (origin.opened serveTask)
  lodged : session.Lodged index origin.path

theorem Running.follow (fresh : origin.Fresh) {requests : List Session.Step}
    (traffic : ∀ request ∈ requests, request.isTraffic) :
    ∀ {session : Session Relay}, Running origin index session →
      Running origin index (follow session requests) := by
  have coherent : (origin.opened serveTask).Coherent :=
    (fresh.opens serveTask).coherent fresh.coherent
  induction requests with
  | nil => exact fun {_} running => running
  | cons request others ih =>
      intro session running
      obtain ⟨here, later⟩ := List.forall_mem_cons.mp traffic
      have allowed : request.keepsTo Server.nobody session index (serveTask + 1) := by
        cases request with
        | start changed duty => exact here.elim
        | _ => trivial
      exact ih later ⟨running.runs.perform coherent (serveTask + 1) allowed,
        running.lodged.same (Session.tree_perform session (serveTask + 1) here)⟩

theorem running_unrelayedStart {next : Session Relay}
    (listens : (session.addServer (unrelayed settings)).listen session.servers.length =
      (next, none)) :
    Running (unrelayed settings) session.servers.length (unrelayedStart session settings) := by
  have fresh : (unrelayed settings).Fresh := rfl
  have found := session.server?_addServer (unrelayed settings)
  have listening := (Session.listen_listens found listens).1
  have begins : unrelayedStart session settings =
      next.onServer session.servers.length fun server =>
        server.startTask next.now serveTask .serve := by
    simp only [unrelayedStart, listens]
  rw [begins]
  refine ⟨⟨(unrelayed settings).opened serveTask, ?_, ⟨[], Server.Run.still⟩,
    fresh.opened_settled⟩, (Session.listen_lodges found listens).same (Session.tree_onServer ..)⟩
  rw [Session.server?_onServer, if_pos rfl, listening, Option.map_some]
  rfl

def Holding (settings : Settings) (device : Relay.Device) : Option Relay.Grip → Prop
  | none => settings.relayDevice = ""
  | some grip => grip.Since device.calls

theorem Serves.startRelay
    (serves : Serves ((settings.relay? device).map Relay.grip) index bare daemon) :
    ∃ grip, Serves grip index bare daemon.startRelay ∧ Holding settings device grip := by
  have held := serves.relay
  unfold Daemon.startRelay
  split
  next none =>
    rw [none] at held
    refine ⟨_, serves, ?_⟩
    rw [← held]
    simp only [Settings.relay?] at held
    split at held
    next absent => exact absent
    next => cases held
  next relay here =>
    rw [here] at held
    have shut : relay.grip = ⟨none, device.calls⟩ := by
      simp only [Settings.relay?] at held
      split at held
      · cases held
      · exact Option.some.inj held
    refine ⟨_, (serves.setRelay _).note _, ?_⟩
    have since := relay.grip_start daemon.session.tree
      (Option.map_eq_none_iff.mp (congrArg Relay.Grip.onDevice shut))
    rwa [show relay.device.calls = device.calls from congrArg Relay.Grip.calls shut] at since

namespace Serves

variable (serves : Serves grip index bare daemon)
include serves

theorem serve (idle : ∀ server, bare.server? index = some server →
      server.waiters = [] ∧ server.handlers = []) :
    Serves grip index (bare.onServer index fun server => server.startTask bare.now serveTask .serve)
      daemon.serve := by
  have started : Session.Mirrors (Beside grip) (fun id => id) [] index
      (bare.onServer index fun server => server.startTask bare.now serveTask .serve)
      (daemon.session.onServer index fun server =>
        server.startTask daemon.session.now serveTask .serve) := by
    rw [serves.mirrors.now]
    refine serves.mirrors.here fun server later found _ twins => ?_
    have starts : server.alone ⟨serveTask, .serve⟩ := ⟨rfl, idle server found⟩
    refine ⟨twins.startTask lasting_beside bare.now starts, ?_⟩
    have waits : Server.Run Server.alone server [.await ⟨serveTask, .serve⟩]
        (server.await ⟨serveTask, .serve⟩) := Server.Run.one (.await ⟨serveTask, .serve⟩) starts
    obtain ⟨_, settles⟩ :=
      (Server.works_settle (server.await ⟨serveTask, .serve⟩) bare.now).alone
    exact (waits.trans settles).nextId_le
  have same : daemon.serve.session = daemon.session.onServer index fun server =>
      server.startTask daemon.session.now serveTask .serve := by
    rw [← serves.own]
    rfl
  exact { serves with mirrors := same ▸ started }

theorem consumeEvents : Serves grip index bare daemon.consumeEvents := by
  unfold Daemon.consumeEvents
  split
  · split
    · exact serves.changeRelay Relay.grip_consume
    · exact serves
  · exact serves

end Serves

theorem added_mirrors (strangers : session.Knows session.servers.length 0) (settings : Settings)
    (device : Relay.Device) (records : List Journal.Record) :
    Session.Mirrors (Beside ((settings.relay? device).map Relay.grip)) (fun id => id) []
      session.servers.length (session.addServer (unrelayed settings))
      ((records.foldl Session.note session).addServer (.ofSettings settings
        { store := ⟨settings.initialState, 0⟩, outlet := settings.relay? device })) := by
  let relayed : Server Relay := .ofSettings settings
    { store := ⟨settings.initialState, 0⟩, outlet := settings.relay? device }
  have fresh : (unrelayed settings).Fresh := rfl
  have again : relayed.Fresh := rfl
  have alone : Server.Mirrors Eq (fun id => id) [] (unrelayed settings) (unrelayed settings) :=
    Server.Mirrors.self rfl
  have twins : Server.Twins (Beside ((settings.relay? device).map Relay.grip)) (fun id => id) []
      (unrelayed settings) relayed :=
    ⟨{ alone with outlet := ⟨rfl, rfl⟩ }, ⟨_, [], fresh, Server.Run.still⟩,
      ⟨fresh.coherent, fresh.settled⟩, ⟨again.coherent, again.settled⟩⟩
  have added : Session.Mirrors (Beside ((settings.relay? device).map Relay.grip)) (fun id => id) []
      session.servers.length (session.addServer (unrelayed settings))
      (session.addServer relayed) := by
    refine ⟨rfl, rfl, rfl, by simp [Session.addServer], fun here apart => ?_, ?_, ?_, _, _,
      session.server?_addServer _, session.server?_addServer _, twins,
      show session.Knows session.servers.length _ from strangers.mono (Nat.zero_le _)⟩
    · simp only [Session.server?, Session.addServer, List.getElem?_append]
      split
      · rfl
      · have beyond : here - session.servers.length ≠ 0 := by omega
        obtain ⟨more, shape⟩ := Nat.exists_eq_succ_of_ne_zero beyond
        simp [shape]
    · simp only [Client.renumber_id, Prod.mk.eta, List.map_id']
      rfl
    · simp only [Wire.renumber, Peer.renumber_id, List.map_id']
      rfl
  rw [Session.foldl_note_addServer]
  exact added.noted records

theorem start_serves (strangers : session.Knows session.servers.length 0)
    (serving : (start session denied settings device).phase = .serving) :
    Running (unrelayed settings) session.servers.length (unrelayedStart session settings) ∧
    ∃ grip, Serves grip session.servers.length (unrelayedStart session settings)
        (start session denied settings device) ∧ Holding settings device grip := by
  rcases start_cases session denied settings device with
    ⟨failure, failed⟩ | ⟨records, checked⟩ | ⟨records, server, assembled, launched⟩
  · exact nomatch failed.symm.trans serving
  · rw [checked] at serving
    cases serving
  obtain rfl := assemble_eq assembled
  rw [launched] at serving ⊢
  rcases launch_cases { session := (records.foldl Session.note session).addServer _
                        index := session.servers.length } with
    ⟨failure, failed⟩ | ⟨next, error, refuses, shape⟩ | ⟨next, listens, shape⟩
  · exact nomatch failed.symm.trans serving
  · rw [shape] at serving
    cases serving
  rw [shape]
  obtain ⟨mine, theirs, answer, here, there, mirrors⟩ :=
    ((added_mirrors strangers settings device records).listen lasting_beside
      session.servers.length).elim
  obtain ⟨rfl, rfl⟩ := Prod.mk.inj (listens.symm.trans there)
  have running := running_unrelayedStart here
  have listening := (Session.listen_listens (session.server?_addServer _) here).1
  have begins : unrelayedStart session settings =
      mine.onServer session.servers.length fun server =>
        server.startTask mine.now serveTask .serve := by
    simp only [unrelayedStart, here]
  have listened : Serves ((settings.relay? device).map Relay.grip) session.servers.length mine
      { session := next, index := session.servers.length } := ⟨rfl, rfl, mirrors⟩
  obtain ⟨grip, started, holding⟩ := listened.startRelay
  refine ⟨running, grip, ?_, holding⟩
  have idle : ∀ server, mine.server? session.servers.length = some server →
      server.waiters = [] ∧ server.handlers = [] := by
    intro server found
    obtain rfl := Option.some.inj (listening.symm.trans found)
    exact ⟨rfl, rfl⟩
  rw [begins]
  exact (started.serve idle).consumeEvents

theorem exists_value_foldl (bytes : List UInt8) {state : RuntimeState} {value : Int}
    (holds : state.value = some value) :
    ∃ last, ((bytes.map Command.ofByte).foldl RuntimeState.apply state).value = some last := by
  induction bytes generalizing state value with
  | nil => exact ⟨value, holds⟩
  | cons byte rest ih =>
      obtain ⟨next, keeps⟩ : ∃ next, (state.apply (Command.ofByte byte)).value = some next := by
        unfold Command.ofByte
        split_ifs
        · exact ⟨value, holds⟩
        · exact ⟨value, holds⟩
        · exact ⟨byte.toNat, rfl⟩
      exact ih keeps

theorem finalRecord_eq {store : Store} {value : Int} (holds : store.state.value = some value) :
    finalRecord store =
      { level := Journal.info
        source := Journal.Source.root
        message := "Final state: running=" ++ (if store.state.running then "True" else "False") ++
          " value=" ++ toString value ++ " (" ++ toString store.applied ++ " commands applied)" } := by
  have text : store.state.text = "running=" ++ (if store.state.running then "True" else "False") ++
      " value=" ++ toString value := by
    rw [RuntimeState.text, RuntimeState.runningText, holds]
    rfl
  have start : "Final state: running=" = "Final state: " ++ "running=" := rfl
  rw [finalRecord, record, text, start]
  simp only [String.append_assoc, -String.reduceAppend]

/-- The state and the number can be told from the record. -/
theorem finalRecord_inj {store other : Store} (same : finalRecord store = finalRecord other) :
    store = other := by
  have parts (store : Store) : (finalRecord store).message.toList =
      "Final state: ".toList ++ (store.state.text.toList ++ ' ' ::
        ('(' :: (store.applied.repr.toList ++ " commands applied)".toList))) := by
    simp [finalRecord, record, Nat.toString_eq_repr]
  have letters := congrArg (fun record => record.message.toList) same
  rw [parts, parts, List.append_cancel_left_eq] at letters
  obtain ⟨state, number⟩ := RuntimeState.text_append_inj letters
  rw [List.cons.injEq, List.append_cancel_right_eq] at number
  have applied := eq_of_repr_eq (String.toList_injective number.2)
  cases store
  cases other
  exact congrArg₂ Store.mk state applied

/-! The end. -/

structure Over (settings : Settings) (device : Relay.Device) (index : Nat)
    (rest : Session Relay) (daemon : Daemon) : Prop where
  ended : daemon.phase = .ended 0
  own : daemon.index = index
  mirrors : ∃ alike, Session.Mirrors alike (fun id => id) [] index rest daemon.session
  released : match daemon.relay? with
    | none => settings.relayDevice = ""
    | some relay => relay.line = none ∧ Relay.Returned device.calls relay.device.calls
  reported : daemon.session.records.getLast? = some (finalRecord daemon.store)

theorem Over.server (ended : Over settings device index rest daemon) {server : Server Relay}
    (found : rest.server? index = some server) : ∃ alike later, daemon.server? = some later ∧
      Server.Mirrors alike (fun id => id) [] server later := by
  obtain ⟨alike, mirrors⟩ := ended.mirrors
  obtain ⟨first, later, here, there, twins, _⟩ := mirrors.watched
  obtain rfl := Option.some.inj (here.symm.trans found)
  refine ⟨alike, later, ?_, twins.mirrors⟩
  rw [server?, ended.own, there]

theorem Over.store (ended : Over settings device index rest daemon) {server : Server Relay}
    (found : rest.server? index = some server) : daemon.store = server.dispatcher.store := by
  obtain ⟨_, later, here, mirrors⟩ := ended.server found
  rw [Daemon.store, here]
  exact mirrors.store

theorem Serves.stopRelay (serves : Serves grip index bare daemon) :
    Serves (grip.map Relay.Grip.released) index bare daemon.stopRelay := by
  have held := serves.relay
  unfold Daemon.stopRelay
  split
  next none =>
    rw [none] at held
    rw [← held]
    rw [← held] at serves
    exact serves
  next relay here =>
    rw [here] at held
    have stopped := (serves.setRelay relay.stop.1).note relay.stop.2
    rw [relay.grip_stop] at stopped
    rw [← held]
    exact stopped

theorem Serves.shutDown (serves : Serves grip index bare daemon)
    (holding : Holding settings device grip) (stops : bare.stop index = (rest, none)) :
    Over settings device index rest daemon.shutDown := by
  obtain rfl := serves.own
  obtain ⟨mine, theirs, answer, here, there, mirrors⟩ :=
    ((serves.note [shutdownRecord]).mirrors.stop lasting_beside daemon.index).elim
  obtain ⟨rfl, rfl⟩ := Prod.mk.inj (stops.symm.trans here)
  let stopped := { daemon with session := theirs }.stopRelay
  have shape : daemon.shutDown =
      { stopped.note [finalRecord stopped.store] with phase := .ended 0 } := by
    simp only [Daemon.shutDown, there]
    rfl
  have halted : Serves grip daemon.index rest { daemon with session := theirs } :=
    ⟨serves.serving, rfl, mirrors⟩
  have left : Serves (grip.map Relay.Grip.released) daemon.index rest stopped := halted.stopRelay
  rw [shape]
  refine ⟨rfl, left.own, ⟨_, left.mirrors.noted _⟩, ?_, ?_⟩
  · have held := left.relay
    rw [show relay? { stopped.note [finalRecord stopped.store] with phase := .ended 0 } =
      stopped.relay? from rfl]
    cases grip with
    | none =>
        rw [Option.map_eq_none_iff.mp held]
        exact holding
    | some first =>
        obtain ⟨relay, here, released⟩ := Option.map_eq_some_iff.mp held
        rw [here]
        refine ⟨Option.map_eq_none_iff.mp (congrArg Relay.Grip.onDevice released), ?_⟩
        rw [show relay.device.calls = first.released.calls from
          congrArg Relay.Grip.calls released]
        exact Relay.Grip.Since.released holding
  · have written : (stopped.note [finalRecord stopped.store]).session.records =
        stopped.session.records ++ [finalRecord stopped.store] := rfl
    rw [written, List.getLast?_concat]
    rfl

/-- The daemon serves until the signal comes, and then does what the session without its relay does. -/
theorem start_over (strangers : session.Knows session.servers.length 0)
    (serving : (start session denied settings device).phase = .serving) {steps : List Step}
    (traffic : ∀ step ∈ steps, step.isTraffic) :
    let last := follow (unrelayedStart session settings) (steps.filterMap Step.session?)
    ∃ server rest, last.server? session.servers.length = some server ∧
      (∃ moves, Server.Run Server.nobody ((unrelayed settings).opened serveTask) moves server) ∧
      server.Settled ∧ last.stop session.servers.length = (rest, none) ∧
      (∀ spelling ∈ [settings.socketPath, Path.normalize settings.socketPath],
        rest.tree.isThereItself spelling = false) ∧
      Over settings device session.servers.length rest
        ((start session denied settings device).run (steps ++ [.signal 1])).1 := by
  intro last
  have fresh : (unrelayed settings).Fresh := rfl
  obtain ⟨begins, grip, serves, holding⟩ := start_serves strangers serving
  obtain ⟨quiet, served, follows⟩ := serves.run traffic
  have requests : ∀ request ∈ steps.filterMap Step.session?, request.isTraffic := by
    intro request member
    obtain ⟨step, present, shape⟩ := List.mem_filterMap.mp member
    cases step with
    | session other =>
        obtain rfl := Option.some.inj shape
        exact traffic _ present
    | _ => cases shape
  obtain ⟨⟨server, found, ⟨moves, run⟩, settled⟩, lodged⟩ := begins.follow fresh requests
  have path : server.path = settings.socketPath := by
    rw [← run.foldl_eq, Server.path_foldl]
    exact Server.path_foldl [.listen, .await ⟨serveTask, .serve⟩] (unrelayed settings)
  obtain ⟨rest, stops, gone⟩ := Session.Lodged.stop (path ▸ lodged) found
  have ends : (quiet.run [.signal 1]).1 =
      { quiet with session := { quiet.session with records := [], finished := [] } }.shutDown := by
    have stepped : (quiet.step (.signal 1)).1 =
        { quiet with session := { quiet.session with records := [], finished := [] } }.shutDown := by
      simp [step, perform, signal, served.serving]
    have ended := (served.quiet.shutDown holding stops).ended
    rw [run_cons (by simp [stepped, ended]), stepped]
    rfl
  refine ⟨server, rest, found, ⟨moves, run⟩, settled, stops, path ▸ gone, ?_⟩
  rw [follows, ends]
  exact served.quiet.shutDown holding stops

theorem store_ends (strangers : session.Knows session.servers.length 0)
    (serving : (start session denied settings device).phase = .serving) {steps : List Step}
    (traffic : ∀ step ∈ steps, step.isTraffic) {server : Server Relay}
    (stopped : ((follow (unrelayedStart session settings) (steps.filterMap Step.session?)).stop
      session.servers.length).1.server? session.servers.length = some server) :
    ((start session denied settings device).run (steps ++ [.signal 1])).1.store =
      server.dispatcher.store := by
  obtain ⟨_, _, _, _, _, stops, _, ended⟩ := start_over strangers serving traffic
  rw [stops] at stopped
  exact ended.store stopped

/-- A daemon that has come to serve and gets one signal ends well, wherever its clients and its
device are by then: nothing is open, nothing is left at its path, the device has been closed as
often as it was opened, and the last that it writes is the state which the bytes of all connections
have made of the initial one. Another relay would not have changed this state. -/
theorem ends_in_order (strangers : session.Knows session.servers.length 0)
    (serving : (start session denied settings device).phase = .serving) {steps : List Step}
    (traffic : ∀ step ∈ steps, step.isTraffic) :
    let daemon := ((start session denied settings device).run (steps ++ [.signal 1])).1
    daemon.phase = .ended 0 ∧
    (∃ server commands, daemon.server? = some server ∧ server.isListening = false ∧
      (∀ connection ∈ server.connections, connection.isOpen = false) ∧
      let bytes := server.connections.flatMap Connection.taken
      (bytes.mapM fun byte => Command.decode byte.toNat) = .ok commands ∧
      daemon.store = ⟨commands.foldl RuntimeState.apply ⟨false, some settings.initialValue⟩,
        bytes.length⟩) ∧
    daemon.session.records.getLast? = some (finalRecord daemon.store) ∧
    (∃ value, daemon.store.state.value = some value ∧ finalRecord daemon.store =
      { level := Journal.info
        source := Journal.Source.root
        message := "Final state: running=" ++
          (if daemon.store.state.running then "True" else "False") ++ " value=" ++
          toString value ++ " (" ++ toString daemon.store.applied ++ " commands applied)" }) ∧
    (∀ store, finalRecord store = finalRecord daemon.store → store = daemon.store) ∧
    (∀ spelling ∈ [settings.socketPath, Path.normalize settings.socketPath],
      daemon.session.tree.isThereItself spelling = false) ∧
    (match daemon.relay? with
      | none => settings.relayDevice = ""
      | some relay => relay.line = none ∧ Relay.Returned device.calls relay.device.calls) ∧
    ∀ otherDenied path baudrate otherDevice otherSteps,
      let other := start session otherDenied
        { settings with relayDevice := path, relayBaudrate := baudrate } otherDevice
      other.phase = .serving → (∀ step ∈ otherSteps, step.isTraffic) →
      otherSteps.filterMap Step.session? = steps.filterMap Step.session? →
      (other.run (otherSteps ++ [.signal 1])).1.store = daemon.store := by
  intro daemon
  have fresh : (unrelayed settings).Fresh := rfl
  obtain ⟨server, rest, found, ⟨moves, run⟩, settled, stops, gone, ended⟩ :=
    start_over strangers serving traffic
  obtain ⟨deaf, closed, store⟩ := fresh.stop_rests run settled
  have stopped : rest.server? session.servers.length = some server.stop.reported := by
    have left := Session.server?_stop found
    rwa [stops] at left
  obtain ⟨_, later, here, mirrors⟩ := ended.server stopped
  have kept : daemon.store = server.stop.reported.dispatcher.store := ended.store stopped
  refine ⟨ended.ended, ⟨later, _, here, mirrors.isListening.trans deaf, ?_,
    Command.mapM_decode _, ?_⟩, ended.reported, ?_, fun _ => finalRecord_inj, ?_, ended.released, ?_⟩
  · rw [mirrors.connections_eq]
    exact closed
  · rw [mirrors.connections_eq, kept]
    refine store.trans ?_
    simp [Server.reported, unrelayed, Server.ofSettings, Settings.initialState]
  · obtain ⟨value, holds⟩ := exists_value_foldl (server.stop.connections.flatMap Connection.taken)
      (show (unrelayed settings).dispatcher.store.state.value = some settings.initialValue from rfl)
    have held : daemon.store.state.value = some value := by
      rw [kept, ← holds]
      exact congrArg (fun store => store.state.value) store
    exact ⟨value, held, finalRecord_eq held⟩
  · obtain ⟨_, apart⟩ := ended.mirrors
    rw [apart.tree]
    exact gone
  · intro otherDenied path baudrate otherDevice otherSteps other serves others same
    obtain ⟨_, left, _, _, _, stays, _, again⟩ := start_over strangers serves others
    rw [same] at stays
    obtain ⟨rfl, _⟩ := Prod.mk.inj (stops.symm.trans stays)
    exact (again.store stopped).trans kept.symm

theorem start_serving (strangers : session.Knows session.servers.length 0)
    {findings : List Health.Finding}
    (checked : Health.check { tree := session.tree, denied := denied } settings = .ok findings)
    (passes : Health.hasCriticalFailure findings = false)
    (valid : Store.create settings.initialState = .ok ⟨settings.initialState, 0⟩)
    (listens : ((session.addServer (unrelayed settings)).listen session.servers.length).2 = none) :
    (start session denied settings device).phase = .serving := by
  have assembled : Server.assemble settings device = .ok (.ofSettings settings
      { store := ⟨settings.initialState, 0⟩, outlet := settings.relay? device }) := by
    rw [Server.assemble, valid]
    rfl
  obtain ⟨mine, theirs, answer, here, there, _⟩ :=
    ((added_mirrors strangers settings device (Health.records findings)).listen lasting_beside
      session.servers.length).elim
  obtain rfl : answer = none := by
    rw [here] at listens
    exact listens
  rw [start_launches checked passes assembled, launch, there]
  exact phase_launched _ theirs

set_option maxRecDepth 8000 in
/-- A client sends a value, and the device something that is of no interest; then the signal comes.
The same client meets a relay that cannot open its device. -/
theorem ends_in_order_one_client :
    let settings : Settings := { socketPath := "./s", relayDevice := "dev0" }
    let session : Session Relay := { modeFailure := some 1 }
    let steps : List Step := [.session (.connect "a" "s"), .device (.arrival (.bytes [0xC1])),
      .session (.sendValue "a" 7)]
    let others : List Step := [.session (.connect "a" "s"), .session (.sendValue "a" 7)]
    let first := start session [] settings {}
    let second := start session [] settings { openFailure := some 16 }
    let daemon := (first.run (steps ++ [.signal 1])).1
    first.phase = .serving ∧ second.phase = .serving ∧
      daemon.phase = .ended 0 ∧ daemon.store = ⟨⟨false, some 7⟩, 1⟩ ∧
      daemon.session.records.getLast? = some
        { level := 20, source := "root"
          message := "Final state: running=False value=7 (1 commands applied)" } ∧
      daemon.session.tree.isThereItself "s" = false ∧
      (second.run (others ++ [.signal 1])).1.store = daemon.store := by
  intro settings session steps others first second daemon
  have strangers : session.Knows session.servers.length 0 := by
    simp [Session.Knows, session]
  obtain ⟨listens, parent, form, clean, clear, directory, there, free⟩ :
      ((session.addServer (unrelayed settings)).listen session.servers.length).2 = none ∧
      Path.parent settings.socketPath = "." ∧ Path.normalize settings.socketPath = "s" ∧
      Path.hasNul "s" = false ∧ Path.hasNul "." = false ∧
      session.tree.isDirectory "." = .ok true ∧ session.tree.isThere "." = true ∧
      session.tree.nodeAt "s" = .error SystemError.notFound := by
    simp only [session, settings, unrelayed, Server.ofSettings, Session.addServer]
    decide
  obtain ⟨place, address, checked⟩ : ∃ place address,
      Health.check { tree := session.tree, denied := [] } settings =
        .ok [⟨Health.directoryName, true, place⟩, ⟨Health.pathName, true, address⟩,
          Health.checkDevice { tree := session.tree, denied := [] } settings] := by
    simp only [Health.check, Health.checkDirectory, Health.checkPath, parent, form, clean, clear,
      Health.Surroundings.accessible, directory, there, free]
    exact ⟨_, _, rfl⟩
  have serves (device : Relay.Device) : (start session [] settings device).phase = .serving :=
    start_serving strangers checked (Health.passes_without_device ..) rfl listens
  have traffic : ∀ step ∈ steps, step.isTraffic := by
    simp [steps, Step.isTraffic, Session.Step.isTraffic]
  have other : ∀ step ∈ others, step.isTraffic := by
    simp [others, Step.isTraffic, Session.Step.isTraffic]
  have spelt : "s" ∈ [settings.socketPath, Path.normalize settings.socketPath] := by simp [form]
  have alike : others.filterMap Step.session? = steps.filterMap Step.session? := rfl
  obtain ⟨server, stopped, holds⟩ : ∃ server : Server Relay,
      ((follow (unrelayedStart session settings) (steps.filterMap Step.session?)).stop
        session.servers.length).1.server? session.servers.length = some server ∧
      server.dispatcher.store = ⟨⟨false, some 7⟩, 1⟩ := by
    refine Option.map_eq_some_iff.mp ?_
    simp only [session, settings, steps]
    decide +kernel
  clear_value session settings steps others
  have store : daemon.store = ⟨⟨false, some 7⟩, 1⟩ :=
    (store_ends strangers (serves {}) traffic stopped).trans holds
  obtain ⟨ended, _, last, ⟨value, held, told⟩, _, gone, _, same⟩ :=
    ends_in_order strangers (serves {}) traffic
  rw [show ((start session [] settings {}).run (steps ++ [.signal 1])).1.store = _ from store]
    at held told
  obtain rfl : 7 = value := Option.some.inj held
  refine ⟨serves _, serves _, ended, store, ?_, gone "s" spelt, ?_⟩
  · rw [last, show daemon.store = _ from store, told]
    rfl
  · exact same [] settings.relayDevice settings.relayBaudrate { openFailure := some 16 } others
      (serves _) other alike

end Daemon
end SteeringChannel
