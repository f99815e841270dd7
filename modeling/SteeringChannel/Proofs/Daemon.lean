import SteeringChannel.Daemon.Step

/-!
The ways in which a start can go, and what the parts of a daemon's life leave alone. A start is
refused by the checks or by the address, fails, or comes to the point where the daemon serves.
-/

namespace SteeringChannel

theorem Health.checkDevice_name (surroundings : Surroundings) (settings : Settings) :
    (checkDevice surroundings settings).name = deviceName := by
  simp only [checkDevice]
  split
  · rfl
  · split
    · rfl
    · split <;> rfl

theorem Health.passes_without_device (surroundings : Surroundings) (settings : Settings)
    (directory address : String) : hasCriticalFailure [⟨directoryName, true, directory⟩,
      ⟨pathName, true, address⟩, checkDevice surroundings settings] = false := by
  simp [hasCriticalFailure, checkDevice_name, deviceName, directoryName, pathName]

namespace Daemon

variable {session : Session Relay} {denied : List String} {settings : Settings}
  {device : Relay.Device} {daemon : Daemon}

theorem frame_changeRelay (daemon : Daemon) (change : Relay → Relay) :
    (daemon.changeRelay change).phase = daemon.phase ∧
      (daemon.changeRelay change).index = daemon.index := by
  unfold changeRelay
  split <;> exact ⟨rfl, rfl⟩

theorem frame_startRelay (daemon : Daemon) :
    daemon.startRelay.phase = daemon.phase ∧ daemon.startRelay.index = daemon.index := by
  unfold startRelay
  split <;> exact ⟨rfl, rfl⟩

theorem frame_consumeEvents (daemon : Daemon) :
    daemon.consumeEvents.phase = daemon.phase ∧ daemon.consumeEvents.index = daemon.index := by
  unfold consumeEvents
  split
  · split
    · exact daemon.frame_changeRelay Relay.consume
    · exact ⟨rfl, rfl⟩
  · exact ⟨rfl, rfl⟩

theorem run_cons {request : Step} {rest : List Step}
    (unforced : (daemon.step request).1.phase ≠ .forced) :
    (daemon.run (request :: rest)).1 = ((daemon.step request).1.run rest).1 := by
  simp only [run]
  generalize daemon.step request = stepped at unforced ⊢
  rw [if_neg unforced]

theorem assemble_eq {server : Server Relay}
    (assembled : Server.assemble settings device = .ok server) :
    server = .ofSettings settings
      { store := ⟨settings.initialState, 0⟩, outlet := settings.relay? device } := by
  simp only [Server.assemble, Store.create, Settings.initialState] at assembled
  split at assembled <;> simp_all [Except.map, Settings.initialState]

theorem start_cases (session : Session Relay) (denied : List String) (settings : Settings)
    (device : Relay.Device) :
    (∃ failure, (start session denied settings device).phase = .failed failure) ∨
    (∃ records : List Journal.Record, start session denied settings device =
      { session := records.foldl Session.note session
        index := session.servers.length
        phase := .ended 1 }) ∨
    ∃ (records : List Journal.Record) (server : Server Relay),
      Server.assemble settings device = .ok server ∧ start session denied settings device =
        launch { session := (records.foldl Session.note session).addServer server
                 index := session.servers.length } := by
  unfold start
  dsimp only
  split
  next error _ => exact .inl ⟨.path error, rfl⟩
  next findings _ =>
    split
    next => exact .inr (.inl ⟨Health.records findings ++ [abortRecord], by
      rw [List.foldl_append]
      rfl⟩)
    next =>
      split
      next error _ => exact .inl ⟨.store error, rfl⟩
      next server assembled =>
        exact .inr (.inr ⟨Health.records findings, server, assembled, rfl⟩)

theorem start_launches {findings : List Health.Finding} {server : Server Relay}
    (checked : Health.check { tree := session.tree, denied := denied } settings = .ok findings)
    (passes : Health.hasCriticalFailure findings = false)
    (assembled : Server.assemble settings device = .ok server) :
    start session denied settings device =
      launch { session := ((Health.records findings).foldl Session.note session).addServer server
               index := session.servers.length } := by
  unfold start
  rw [checked]
  dsimp only
  rw [if_neg (by simp [passes]), assembled]
  rfl

theorem launch_cases (daemon : Daemon) :
    (∃ failure, daemon.launch.phase = .failed failure) ∨
    (∃ next error, daemon.session.listen daemon.index = (next, some (.bind error)) ∧
      daemon.launch =
        { daemon with session := next.note (refusalRecord error), phase := .ended 1 }) ∨
    ∃ next, daemon.session.listen daemon.index = (next, none) ∧
      daemon.launch = { daemon with session := next }.startRelay.serve.consumeEvents := by
  unfold launch
  split
  next next listens => exact .inr (.inr ⟨next, listens, rfl⟩)
  next next error refuses => exact .inr (.inl ⟨next, error, refuses, rfl⟩)
  next next error _ _ => exact .inl ⟨.listen error, rfl⟩

theorem phase_launched (daemon : Daemon) (next : Session Relay) :
    { daemon with session := next }.startRelay.serve.consumeEvents.phase = daemon.phase :=
  (frame_consumeEvents _).1.trans (frame_startRelay { daemon with session := next }).1

end Daemon
end SteeringChannel
