import SteeringChannel.Proofs.Server.Accord

/-!
A client that goes on before the server has settled. What the server would still do then, it does
later and with the same outcome: a connection that arrives in between stands at the end of the
line, where it does not matter to the ones before it.
-/

namespace SteeringChannel.Server

variable {σ : Type} [Outlet σ] {alike : Option σ → Option σ → Prop} {number : Nat → Nat}
  {probes : List Nat} {server other : Server σ} {now : Rat} {id : Nat} {last : Connection}

def append (server : Server σ) (last : Connection) : Server σ :=
  { server with connections := server.connections ++ [last], queue := server.queue ++ [last.id] }

section Appended

variable (server : Server σ) (differs : last.id ≠ id)
include differs

omit [Outlet σ] in
theorem connection?_append : (server.append last).connection? id = server.connection? id := by
  simp [connection?, append, List.find?_append, differs]

omit [Outlet σ] in
theorem update_append (change : Connection → Connection) :
    (server.append last).update id change = (server.update id change).append last := by
  simp [update, append, differs]

omit [Outlet σ] in
theorem dismiss_append (record : Journal.Record) :
    (server.append last).dismiss id record = (server.dismiss id record).append last := by
  have found := (server.note record).connection?_append differs
  have changed := (server.note record).update_append differs Connection.close
  have noted : (server.append last).note record = (server.note record).append last := rfl
  rw [dismiss, noted, close, shut, found, changed]
  rfl

omit [Outlet σ] in
theorem leave_append {handler : Handler} (reads : handler.connection = id) :
    (server.append last).leave handler = (server.leave handler).append last := by
  subst reads
  have changed := server.update_append differs fun connection => connection.mark .handled
  have released : (server.append last).release handler.connection =
      (server.release handler.connection).append last := by
    rw [release, changed]
    rfl
  simp only [leave, released]
  split
  · simp only [await]
    split <;> split <;> first | rfl | contradiction
  · rfl

omit [Outlet σ] in
theorem endHandling_append {handler : Handler} (reads : handler.connection = id)
    (record : Journal.Record) :
    (server.append last).endHandling handler record =
      (server.endHandling handler record).append last := by
  rw [endHandling, reads, dismiss_append server differs, leave_append _ differs reads, endHandling,
    reads]

theorem consume_append (bytes : List UInt8) :
    (server.append last).consume now id bytes = (server.consume now id bytes).append last := by
  have changed := server.update_append differs fun connection => connection.take bytes.length
  rw [consume_eq, consume_eq, changed]
  rfl

theorem read_append {handler : Handler} (reads : handler.connection = id) :
    (server.append last).read now handler = (server.read now handler).append last := by
  have never : (server.append last).neverWaits = server.neverWaits := rfl
  simp only [read, never]
  rw [reads, connection?_append server differs]
  cases server.connection? id with
  | none => rfl
  | some connection =>
      dsimp only
      split
      · exact server.endHandling_append differs reads _
      · rw [consume_append server differs]
        split
        · exact endHandling_append _ differs reads _
        · rfl

end Appended

theorem settleFirst_append (server : Server σ) {rest : List Nat} (line : server.queue = id :: rest)
    (differs : last.id ≠ id) (now : Rat) :
    (server.append last).settleFirst now = (server.settleFirst now).append last := by
  have longer : (server.append last).queue = id :: (rest ++ [last.id]) := by
    simp [append, line]
  have waiting : (server.append last).waiters = server.waiters := rfl
  simp only [settleFirst]
  rw [longer, line, waiting]
  cases waiters : server.waiters with
  | nil => rfl
  | cons waiter others =>
      have changed := server.update_append differs fun connection => connection.mark .handed
      have opened : (server.append last).isOpen id = server.isOpen id := by
        simp only [isOpen, connection?_append server differs]
      have handed : (server.append last).handFirst now = (server.handFirst now).append last := by
        rw [handFirst_eq longer (waiting.trans waiters), handFirst_eq line waiters, hand, hand,
          changed, opened]
        rfl
      have reading : ((server.handFirst now).append last).handler? id =
        (server.handFirst now).handler? id := rfl
      dsimp only
      rw [handed]
      simp only [readIfHandled, reading]
      cases found : (server.handFirst now).handler? id with
      | none => rfl
      | some handler => exact read_append _ differs (handler?_mem found).2

theorem nextId_settleFirst (server : Server σ) (now : Rat) :
    (server.settleFirst now).nextId = server.nextId := by
  refine (server.works_settleFirst now).keeps (fun later => later.nextId = server.nextId) ?_ rfl
  intro before move own _ same
  refine (before.nextId_perform fun arrival arrives => ?_).trans same
  exact (arrives ▸ own : Move.isOwn now (.arrive arrival))

theorem arrive_settleFirst (server : Server σ) (coherent : server.Coherent)
    (running : server.stopped = false) (queueing : server.rejecting = false) (now : Rat)
    (arrival : Connection) :
    (server.settleFirst now).arrive now arrival = server.arrive now arrival := by
  have arrives (server : Server σ) (running : server.stopped = false)
      (queueing : server.rejecting = false) : server.arrive now arrival =
        (server.append { arrival with id := server.nextId, standing := .queued }).settle now := by
    have admits : server.fate = .queued := by simp [fate, running, queueing]
    simp [arrive, register, append, admits, queueing]
  by_cases calm : server.Calm
  · rw [calm.settleFirst now]
  · obtain ⟨id, rest, line⟩ := List.exists_cons_of_ne_nil (not_or.mp calm).1
    have works := server.works_settleFirst now
    have policy := works.reaches.policy.1
    have earlier : id < server.nextId :=
      coherent.lt_nextId (List.mem_append_right _ (by simp [line]))
    rw [arrives server running queueing,
      arrives _ (works.lifecycle.2.trans running) (policy.trans queueing), nextId_settleFirst,
      ← settleFirst_append server line (Nat.ne_of_gt earlier) now, settle_settleFirst]

omit [Outlet σ]

theorem map_renumber_id (connections : List Connection) (handlers : List Handler) :
    connections.map (Connection.renumber fun id => id) = connections ∧
      handlers.map (Handler.renumber fun id => id) = handlers :=
  ⟨List.map_id connections, List.map_id handlers⟩

theorem Mirrors.self (reflexive : alike server.dispatcher.outlet server.dispatcher.outlet) :
    Mirrors alike (fun id => id) [] server server := by
  obtain ⟨connections, handlers⟩ := map_renumber_id server.connections server.handlers
  exact {
    path := rfl, mode := rfl, timeout := rfl, rejecting := rfl, listening := rfl, stopped := rfl
    store := rfl, outlet := reflexive, waiters := rfl, handlers := handlers.symm
    connections := by simpa using connections.symm
    queue := by simp
    injective := fun _ _ same => same
    spares := by simp
    ahead := fun _ => rfl
    ended := by simp
    known := by simp
    active := by simp
    queued := by simp }

def Same (server other : Server σ) : Prop := Mirrors Eq (fun id => id) [] server other

theorem same_reported (server : Server σ) : Same server server.reported :=
  { Mirrors.self rfl with }

theorem Same.eq (same : Same server other) : ∃ served accepted records finished,
    other = { server with
      served := served, accepted := accepted, records := records, finished := finished } := by
  obtain ⟨connections, handlers⟩ := map_renumber_id server.connections server.handlers
  have unfiltered : other.connections = server.connections := by
    simpa [connections] using same.connections
  have queue : other.queue = server.queue := by simpa using same.queue
  have active : other.active = server.active := by simpa using same.active
  have dispatcher : other.dispatcher = server.dispatcher := by
    rw [show other.dispatcher = ⟨other.dispatcher.store, other.dispatcher.outlet⟩ from rfl,
      same.store, ← same.outlet]
  refine ⟨other.served, other.accepted, other.records, other.finished, ?_⟩
  rw [← unfiltered, ← queue, ← active, ← handlers, ← dispatcher, ← same.path, ← same.mode,
    ← same.timeout, ← same.rejecting, ← same.listening, ← same.stopped, ← same.waiters,
    ← same.handlers]

theorem Mirrors.replace {mine theirs : Server σ}
    (mirrors : Mirrors alike number probes server other) (here : Same server mine)
    (there : Same other theirs) : Mirrors alike number probes mine theirs := by
  obtain ⟨_, _, _, _, rfl⟩ := here.eq
  obtain ⟨_, _, _, _, rfl⟩ := there.eq
  exact { mirrors with }

variable [Outlet σ]

theorem lasting_eq : Lasting (Eq : Option σ → Option σ → Prop) :=
  fun _ _ raw same => congrArg (fun outlet => (Dispatcher.passOn raw outlet).1) same

theorem Same.settle (same : Same server other) (now : Rat) :
    Same (server.settle now) (other.settle now) := by
  generalize line : other.queue = queue
  induction queue generalizing server other with
  | nil =>
      have calm : other.Calm := Or.inl line
      rwa [calm.settle now, (@Mirrors.calm _ _ _ _ _ _ same calm).settle now]
  | cons head rest ih =>
      by_cases calm : other.Calm
      · rwa [calm.settle now, (@Mirrors.calm _ _ _ _ _ _ same calm).settle now]
      · have shorter : (other.settleFirst now).queue = rest := by
          rw [queue_settleFirst now calm, line, List.tail_cons]
        rw [← server.settle_settleFirst now, ← other.settle_settleFirst now]
        exact ih (Mirrors.settleFirst_client same lasting_eq line (by simp) now) shorter

theorem Same.arrive (same : Same server other) (now : Rat) (arrival : Connection) :
    Same (server.arrive now arrival) (other.arrive now arrival) := by
  have registered : Same (server.register arrival) (other.register arrival) :=
    Mirrors.register same arrival
  simp only [Server.arrive, Mirrors.fate_eq same]
  split
  · exact registered.settle now
  · exact registered

end SteeringChannel.Server
