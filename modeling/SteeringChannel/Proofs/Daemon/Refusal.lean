import SteeringChannel.Proofs.Daemon
import SteeringChannel.Proofs.Session.Probe
import SteeringChannel.Proofs.Session.Reopening

/-!
A daemon that refuses to start. It does so before it touches its relay, and all that it has done
until then is to look, to connect to who listens at its address, and to remove a stale socket.
-/

namespace SteeringChannel

namespace Server

variable {σ : Type} [Outlet σ] {server : Server σ}

theorem arrive_unawaited (idle : server.waiters = []) (now : Rat) (arrival : Connection) :
    server.arrive now arrival = server.register arrival := by
  have calm : (server.register arrival).Calm := Or.inr (by simp [idle])
  simp only [arrive]
  split
  · exact calm.settle now
  · rfl

theorem Tended.spared (tended : server.Tended) (now : Rat) :
    (server.arrive now probe).dispatcher = server.dispatcher ∧
      (server.arrive now probe).isListening = server.isListening ∧
      (server.arrive now probe).active = server.active ∧
      ∀ id, server.active = some id →
        (server.arrive now probe).connection? id = server.connection? id := by
  have alone : Mirrors Eq (fun id => id) [] server server := Mirrors.self rfl
  have mirrors := alone.probe tended tended.settled.calm lasting_eq now
  obtain ⟨_, _, _, active⟩ := @Solo.renumber _ (fun id => id) server _ tended.solo
  have coherent := tended.solo.coherent
  refine ⟨?_, mirrors.isListening, ?_, fun id slot => ?_⟩
  · exact congrArg₂ Dispatcher.mk mirrors.store mirrors.outlet.symm
  · rw [mirrors.active, active, Option.map_id']
  · have earlier : id < server.nextId := by
      rcases coherent.activeAdmitted id slot with stands | stands | stands <;>
        exact coherent.numbered.lt_nextId stands
    have found := mirrors.connection?_eq id
    rw [skip_before earlier] at found
    rw [found]
    cases there : server.connection? id with
    | none => rfl
    | some connection =>
        obtain rfl := server.id_of_connection? there
        simp only [Option.map_some, Connection.renumber, skip_before earlier]

end Server

namespace Session

variable {σ : Type} [Outlet σ] {session middle next : Session σ} {index : Nat} {server : Server σ}
  {path : String}

theorem server?_probe (session : Session σ) (listener : Address.Listener) (index : Nat) :
    (session.probe listener).server? index = session.server? index ∨
      (session.probe listener).server? index = (session.server? index).map fun server =>
        (server.arrive session.now Server.probe).reported := by
  cases listener with
  | unattended => exact .inl rfl
  | server here =>
      by_cases same : here = index
      · exact .inr ((server?_onServer ..).trans (if_pos same))
      · exact .inl ((server?_onServer ..).trans (if_neg same))

/-- Nothing has been removed but a stale socket at a path, and nothing has been done to a server
but to connect to it and to hang up at once. -/
structure Spares (path : String) (session next : Session σ) : Prop where
  tree : next.tree = session.tree ∨
    ∃ place entry, session.StaleAt path place entry ∧ next.tree = session.tree.remove place
  servers : ∀ index, next.server? index = session.server? index ∨
    ∃ now, next.server? index = (session.server? index).map fun server =>
      (server.arrive now Server.probe).reported

theorem Spares.same (tree : next.tree = session.tree) (servers : next.servers = session.servers) :
    session.Spares path next :=
  ⟨.inl tree, fun index => .inl (congrArg (fun servers => servers[index]?) servers)⟩

theorem Spares.found (spares : session.Spares path next)
    (found : session.server? index = some server) : ∃ later, next.server? index = some later ∧
      (later = server ∨ ∃ now, later = (server.arrive now Server.probe).reported) := by
  rcases spares.servers index with same | ⟨now, probed⟩
  · exact ⟨server, same.trans found, .inl rfl⟩
  · exact ⟨_, by rw [probed, found, Option.map_some], .inr ⟨now, rfl⟩⟩

theorem Spares.entry? (spares : session.Spares path next) (place : Place) :
    next.tree.entry? place = session.tree.entry? place ∨
      ∃ entry, session.StaleAt path place entry ∧ next.tree.entry? place = none := by
  rcases spares.tree with same | ⟨stale, entry, there, removed⟩
  · exact .inl (congrArg (fun tree => tree.entry? place) same)
  · rw [removed]
    by_cases here : place = stale
    · subst here
      refine .inr ⟨entry, there, List.find?_eq_none.mpr fun other member => ?_⟩
      simpa using (List.mem_filter.mp member).2
    · refine .inl ?_
      simp only [Filesystem.entry?, Filesystem.remove, List.find?_filter]
      refine congrArg (List.find? · session.tree.entries) (funext fun other => ?_)
      by_cases same : other.place = place <;> simp [same, here]

theorem clearStale_spares {error : ListenError}
    (fails : session.clearStale path = (next, some error)) : session.Spares path next := by
  obtain same | ⟨listener, probes⟩ : next = session ∨ ∃ listener, next = session.probe listener := by
    simp only [clearStale] at fails
    split at fails
    · exact .inl (Prod.mk.inj fails).1.symm
    · split at fails
      · split at fails
        · simp at fails
        · exact .inl (Prod.mk.inj fails).1.symm
      · split at fails
        · exact .inl (Prod.mk.inj fails).1.symm
        · split at fails
          next listener _ => exact .inr ⟨listener, (Prod.mk.inj fails).1.symm⟩
          next =>
            split at fails
            · exact .inl (Prod.mk.inj fails).1.symm
            · split at fails
              · simp at fails
              · exact .inl (Prod.mk.inj fails).1.symm
  · exact Spares.same (same ▸ rfl) (same ▸ rfl)
  · rw [probes]
    exact ⟨.inl (tree_probe session listener), fun index =>
      (server?_probe session listener index).imp_right fun probed => ⟨_, probed⟩⟩

omit [Outlet σ] in
theorem bindAddress_refused {mode : Int} {error : BindError}
    (refuses : session.bindAddress index path mode = (next, some (.bind error))) :
    next = session := by
  rcases bindAddress_cases session index path mode with ⟨_, _, shape⟩ | ⟨tree, records, _, shape⟩ <;>
    rw [shape] at refuses
  · exact (Prod.mk.inj refuses).1.symm
  -- Only the mode of a socket that has been bound can be out of range.
  have unrelated : (({ session with tree := tree }.onServer index Server.listen).setMode path mode).2 ≠
      some (.bind error) := by
    simp only [setMode]
    split
    · simp
    · split
      · simp
      · split <;> simp
  exact absurd (Prod.mk.inj refuses).2 unrelated

theorem listen_refused (found : session.server? index = some server) {error : BindError}
    (refuses : session.listen index = (next, some (.bind error))) :
    session.Spares (Path.normalize server.path) next := by
  cases result : session.clearStale (Path.normalize server.path) with
  | mk cleared failure =>
    cases failure with
    | some failure =>
        rw [listen_of_fails found result] at refuses
        exact clearStale_spares ((Prod.mk.inj refuses).1 ▸ result)
    | none =>
        rw [listen_of_clears found result] at refuses
        have same := bindAddress_refused refuses
        have servers : next.servers = session.servers := by
          rw [same, servers_clearAddress, (clearStale_keeps result).2]
        refine ⟨?_, fun index => .inl (congrArg (fun servers => servers[index]?) servers)⟩
        rw [same, tree_clearAddress (absent_of_clears result)]
        exact (clearStale_clears result).imp And.right id

end Session

namespace Daemon

variable {session : Session Relay} {denied : List String} {settings : Settings}
  {device : Relay.Device}

/-- The session of a daemon that refuses is the one it was started in, with at most a server more. -/
theorem start_spares (refused : (start session denied settings device).phase = .ended 1) :
    (start session denied settings device).index = session.servers.length ∧
    ∃ before : Session Relay, before.tree = session.tree ∧
      before.Spares (Path.normalize settings.socketPath)
        (start session denied settings device).session ∧
      (before.servers = session.servers ∨ ∃ server,
        Server.assemble settings device = .ok server ∧
          before.servers = session.servers ++ [server]) := by
  rcases start_cases session denied settings device with
    ⟨failure, failed⟩ | ⟨records, checked⟩ | ⟨records, server, assembled, launched⟩
  · exact nomatch failed.symm.trans refused
  · have tree := Session.tree_foldl_note records session
    have servers := Session.servers_foldl_note records session
    rw [checked]
    exact ⟨rfl, session, rfl, .same tree servers, .inl rfl⟩
  · have tree := Session.tree_foldl_note records session
    have servers := Session.servers_foldl_note records session
    let before := (records.foldl Session.note session).addServer server
    have added : before.servers = session.servers ++ [server] :=
      congrArg (· ++ [server]) servers
    have found : before.server? session.servers.length = some server := by
      simp [Session.server?, added]
    have path : server.path = settings.socketPath := by
      obtain rfl := assemble_eq assembled
      rfl
    rw [launched] at refused ⊢
    rcases launch_cases { session := before, index := session.servers.length } with
      ⟨failure, failed⟩ | ⟨next, error, refuses, shape⟩ | ⟨next, _, shape⟩
    · exact nomatch failed.symm.trans refused
    · have spares := Session.listen_refused found refuses
      rw [path] at spares
      rw [shape]
      exact ⟨rfl, before, tree, { spares with }, .inr ⟨server, assembled, added⟩⟩
    · rw [shape, phase_launched] at refused
      cases refused

/-- A refusal leaves everything as it was: the relay has not been opened, signals are nobody's, and
at every place in the file system there is what was there before, but for a stale socket that the
path of the daemon named. Whoever listens there keeps its state and the client that it serves. -/
theorem refusal_spares (refused : (start session denied settings device).phase = .ended 1) :
    let daemon := start session denied settings device
    (∀ relay, daemon.relay? = some relay → settings.relay? device = some relay ∧
      relay.line = none ∧ relay.device = device ∧ relay.fileCalls = []) ∧
    (∀ count, daemon.signal count = (daemon, .unhandled)) ∧
    (∀ server, daemon.server? = some server → server.isListening = false) ∧
    (∀ place, daemon.session.tree.entry? place = session.tree.entry? place ∨
      ∃ entry, session.StaleAt (Path.normalize settings.socketPath) place entry ∧
        daemon.session.tree.entry? place = none) ∧
    ∀ index server, session.server? index = some server → server.Tended →
      ∃ later, daemon.session.server? index = some later ∧
        later.dispatcher.store = server.dispatcher.store ∧
        later.isListening = server.isListening ∧ later.active = server.active ∧
        ∀ id, server.active = some id → later.connection? id = server.connection? id := by
  intro daemon
  obtain ⟨index, before, tree, spares, servers⟩ := start_spares refused
  have own {server : Server Relay} (here : daemon.server? = some server) :
      server.isListening = false ∧ server.dispatcher.outlet = settings.relay? device := by
    replace here : daemon.session.server? session.servers.length = some server := index ▸ here
    rcases servers with same | ⟨first, assembled, added⟩
    · have nobody : before.server? session.servers.length = none := by
        simp [Session.server?, same]
      rcases spares.servers session.servers.length with absent | ⟨now, absent⟩ <;>
        simp [nobody, daemon, absent] at here
    · have found : before.server? session.servers.length = some first := by
        simp [Session.server?, added]
      obtain ⟨later, there, outcome⟩ := spares.found found
      obtain rfl : later = server := Option.some.inj (there.symm.trans here)
      obtain rfl := assemble_eq assembled
      rcases outcome with rfl | ⟨now, rfl⟩
      · exact ⟨rfl, rfl⟩
      · rw [Server.arrive_unawaited rfl]
        simp [Server.reported, Server.isListening, Server.ofSettings]
  refine ⟨fun relay here => ?_, fun count => ?_, fun server here => (own here).1, ?_, ?_⟩
  · obtain ⟨server, there, outlet⟩ := Option.bind_eq_some_iff.mp here
    rw [(own there).2] at outlet
    refine ⟨outlet, ?_⟩
    simp only [Settings.relay?] at outlet
    split at outlet
    · cases outlet
    · obtain rfl := Option.some.inj outlet
      exact ⟨rfl, rfl, rfl⟩
  · exact if_neg (by simp [daemon, refused])
  · intro place
    have entries := spares.entry? place
    simp only [Session.StaleAt, tree] at entries ⊢
    exact entries
  · intro index server there tended
    have found : before.server? index = some server := by
      rcases servers with same | ⟨first, _, added⟩
      · rw [Session.server?, same]
        exact there
      · rw [Session.server?, added]
        exact (List.getElem?_append_left (List.getElem?_eq_some_iff.mp there).1).trans there
    obtain ⟨later, here, rfl | ⟨now, rfl⟩⟩ := spares.found found
    · exact ⟨_, here, rfl, rfl, rfl, fun _ _ => rfl⟩
    · obtain ⟨dispatcher, listening, active, connection⟩ := tended.spared now
      exact ⟨_, here, congrArg Dispatcher.store dispatcher, listening, active, connection⟩

theorem start_refuses {findings : List Health.Finding} {server : Server Relay} {node : Node}
    {listener : Address.Listener}
    (checked : Health.check { tree := session.tree, denied := denied } settings = .ok findings)
    (passes : Health.hasCriticalFailure findings = false)
    (assembled : Server.assemble settings device = .ok server)
    (clean : Path.hasNul (Path.normalize settings.socketPath) = false)
    (there : session.tree.nodeAt (Path.normalize settings.socketPath) = .ok node)
    (socket : node.isSocket = true)
    (leads : Address.dial session.tree (Path.normalize settings.socketPath) = .ok listener) :
    (start session denied settings device).phase = .ended 1 := by
  let before := ((Health.records findings).foldl Session.note session).addServer server
  have tree : before.tree = session.tree := Session.tree_foldl_note (Health.records findings) session
  have servers := Session.servers_foldl_note (Health.records findings) session
  have found : before.server? session.servers.length = some server := by
    simp [before, Session.server?, Session.addServer, servers]
  have path : server.path = settings.socketPath := by
    obtain rfl := assemble_eq assembled
    rfl
  have refuses : before.clearStale (Path.normalize server.path) = (before.probe listener,
      some (.bind (.alreadyBound (Path.normalize settings.socketPath)))) := by
    simp [Session.clearStale, path, clean, tree, there, socket, leads]
  have listens := Session.listen_of_fails found refuses
  have shape : start session denied settings device =
      launch { session := before, index := session.servers.length } :=
    start_launches checked passes assembled
  rw [shape, launch, listens]

/-- A daemon that finds a server at its address, whose only slot is taken. -/
theorem refusal_spares_busy_server :
    let tree := Filesystem.empty.add (Filesystem.workingPlace ++ ["s"]) (.socket (.served 0)) 448
    let server : Server Relay := { path := "s" }
    let first : Session Relay := { tree := tree, servers := [server.opened 9] }
    let session := (first.perform 1 (.connect "a" "s")).1
    let daemon := start session [] { socketPath := "./s", relayDevice := "dev0" } {}
    daemon.phase = .ended 1 ∧
      (∀ relay, daemon.relay? = some relay →
        relay.line = none ∧ relay.device = {} ∧ relay.fileCalls = []) ∧
      ∃ busy later, session.server? 0 = some busy ∧ busy.active = some 1 ∧
        daemon.session.server? 0 = some later ∧ later.active = some 1 ∧
        later.dispatcher.store = busy.dispatcher.store := by
  intro tree server first session daemon
  let settings : Settings := { socketPath := "./s", relayDevice := "dev0" }
  have fresh : server.Fresh := rfl
  obtain ⟨same, slot, parent, form, clean, clear, directory, reachable, there, leads⟩ :
      session.tree = tree ∧ (session.server? 0).map Server.active = some (some 1) ∧
      Path.parent settings.socketPath = "." ∧ Path.normalize settings.socketPath = "s" ∧
      Path.hasNul "s" = false ∧ Path.hasNul "." = false ∧
      tree.isDirectory "." = .ok true ∧ tree.isThere "." = true ∧
      tree.nodeAt "s" = .ok (.socket (.served 0)) ∧ Address.dial tree "s" = .ok (.server 0) := by
    simp only [settings, session, first, server, tree]
    decide
  obtain ⟨place, address, checked⟩ : ∃ place address,
      Health.check { tree := session.tree, denied := [] } settings =
        .ok [⟨Health.directoryName, true, place⟩, ⟨Health.pathName, true, address⟩,
          Health.checkDevice { tree := session.tree, denied := [] } settings] := by
    simp only [Health.check, Health.checkDirectory, Health.checkPath, parent, form, same, clean,
      clear, Health.Surroundings.accessible, directory, reachable, there]
    exact ⟨_, _, rfl⟩
  have refused : daemon.phase = .ended 1 := by
    rw [← form, ← same] at there leads
    exact start_refuses checked (Health.passes_without_device ..) rfl (form ▸ clean) there rfl leads
  have runs : first.Runs 0 Server.nobody (server.opened 9) :=
    ⟨server.opened 9, rfl, ⟨[], Server.Run.still⟩, fresh.opened_settled⟩
  have coherent : (server.opened 9).Coherent := (fresh.opens 9).coherent fresh.coherent
  have allowed : (Session.Step.connect "a" "s").keepsTo Server.nobody first 0 1 := trivial
  obtain ⟨busy, found, tended⟩ := (runs.perform coherent 1 allowed).tended fresh
  have active : busy.active = some 1 := by
    have here := slot
    rw [show session.server? 0 = some busy from found] at here
    exact Option.some.inj here
  obtain ⟨unopened, _, _, _, keeps⟩ := refusal_spares refused
  obtain ⟨later, there, store, _, kept, _⟩ := keeps 0 busy found tended
  exact ⟨refused, fun relay here => (unopened relay here).2, busy, later, found, active, there, kept.trans active, store⟩

end Daemon
end SteeringChannel
