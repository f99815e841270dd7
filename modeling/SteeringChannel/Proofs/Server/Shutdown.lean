import SteeringChannel.Proofs.Server.Halt
import SteeringChannel.Proofs.Server.Task

/-!
What a stop leaves behind. Wherever it finds the tasks and the queue, and whatever happens beside
it, in the end every connection has been closed once, has one fate, and nobody waits or reads.
-/

namespace SteeringChannel.Server

variable {σ : Type} {server last : Server σ}

/-- A stop, with all that happens beside it, up to a moment when nothing more happens by itself:
it closes whatever was open, empties the queue, and the task that this wakes notices it. -/
structure Stopping [Outlet σ] (server : Server σ) (during after : List Move)
    (last : Server σ) : Prop where
  run : Run alone server (.beginStop :: (during ++ .drain :: after)) last
  shuts : ∀ id ∈ server.openIds, .shut id ∈ during
  wakes : server.beginStop.Wakes (during ++ .drain :: after)
  settled : last.Settled

/-- Nothing is left of the connections and the tasks, and only connections from a certain number on
have been turned away. -/
structure Cleared (first : Nat) (server : Server σ) : Prop where
  deaf : server.isListening = false
  refuses : ∀ waiter, server.await waiter = server.refuse waiter (.notOpen server.path)
  queue : server.queue = []
  waiters : server.waiters = []
  handlers : server.handlers = []
  closed : ∀ id, 1 ≤ id → id < server.nextId → ∃ connection,
    server.connection? id = some connection ∧ connection.closes = 1 ∧
      connection.standing ∈ [.rejected, .handled, .discarded, .turnedAway]
  counted : server.served =
    (server.connections.filter fun connection => connection.standing = .handled).length
  turnsAway : server.TurnsAway first

theorem Wakes.append [Outlet σ] {before after : List Move} (undrained : .drain ∉ before)
    (wakes : (before.foldl perform server).Wakes after) : server.Wakes (before ++ after) := by
  induction before generalizing server with
  | nil => exact wakes
  | cons move rest ih =>
      rw [List.mem_cons, not_or] at undrained
      exact ⟨fun drains => absurd drains.symm undrained.1, ih undrained.2 wakes⟩

theorem wakes_of_undrained [Outlet σ] {moves : List Move} (undrained : .drain ∉ moves) :
    server.Wakes moves := by
  rw [← List.append_nil moves]
  exact Wakes.append undrained trivial

theorem waiters_foldl_shut (ids : List Nat) (server : Server σ) :
    (ids.foldl shut server).waiters = server.waiters := by
  induction ids generalizing server with
  | nil => rfl
  | cons first rest ih => exact ih (server.shut first)

theorem mem_moments_woken {waiter : Waiter} (waits : waiter ∈ server.waiters.head?) :
    ∃ time, (time, Moment.woken waiter) ∈ server.moments := by
  simp only [moments]
  refine ⟨_, List.mem_mergeSort.mpr (List.mem_append_right _ (List.mem_map.mpr ⟨waiter, ?_, rfl⟩))⟩
  exact Option.mem_toList.mpr waits

theorem wakes_closing [Outlet σ] (server : Server σ) {moments : List (Nat × Moment)}
    (noticed : ∀ waiter ∈ server.waiters.head?, ∃ time, (time, .woken waiter) ∈ moments) :
    server.beginStop.Wakes (server.openIds.map .shut ++
      .drain :: moments.map fun moment => .live moment.2) := by
  refine Wakes.append (by simp) ⟨fun _ waiter waits => ?_, wakes_of_undrained (by simp)⟩
  have shuts : Run alone server.beginStop (server.openIds.map .shut)
      (server.openIds.foldl shut server.beginStop) := run_foldl_shut alone server.openIds rfl
  rw [shuts.foldl_eq, waiters_foldl_shut] at waits
  obtain ⟨time, member⟩ := noticed waiter waits
  exact List.mem_map.mpr ⟨(time, .woken waiter), member, rfl⟩

theorem Settled.stopping [Outlet σ] (settled : server.Settled) (coherent : server.Coherent) :
    server.Stopping (server.openIds.map .shut)
      (server.moments.map fun moment => .live moment.2) server.stop := by
  obtain ⟨run, rests⟩ := settled.run_stop alone coherent
  exact ⟨run, fun id opened => List.mem_map_of_mem opened,
    server.wakes_closing fun _ waits => mem_moments_woken waits, rests⟩

/-- Wherever a stop begins, it can come to its end. -/
theorem exists_closing [Outlet σ] (starts : Server σ → Waiter → Prop)
    (coherent : server.Coherent) :
    ∃ moments last, Run starts server (server.closing moments) last ∧ last.Settled ∧
      ∀ waiter ∈ server.waiters.head?, ∃ time, (time, Moment.woken waiter) ∈ moments := by
  let noticed : List (Nat × Moment) :=
    (server.handlers.map fun handler => (0, .left handler)) ++
      server.waiters.head?.toList.map fun waiter => (0, .woken waiter)
  have leaving : Moment.leaving noticed = server.handlers := by
    simp [noticed, Moment.leaving, List.filterMap_map]
  obtain ⟨run, queue, remain⟩ := run_closing starts coherent
    (show ∀ handler ∈ Moment.leaving noticed, _ from fun handler reads => leaving ▸ reads)
    (leaving ▸ coherent.distinct)
  refine ⟨noticed, _, run, ?_, fun waiter waits => ⟨0, List.mem_append_right _ ?_⟩⟩
  · refine ⟨⟨fun handler reads => ?_, fun _ => queue⟩, Or.inl queue⟩
    obtain ⟨present, stays⟩ := remain handler reads
    exact absurd (leaving ▸ present) stays
  · exact List.mem_map.mpr ⟨waiter, Option.mem_toList.mpr waits, rfl⟩

theorem exists_stopping [Outlet σ] (coherent : server.Coherent) :
    ∃ during after last, server.Stopping during after last := by
  obtain ⟨moments, last, run, settled, woken⟩ := exists_closing alone coherent
  exact ⟨_, _, last, run, fun id opened => List.mem_map_of_mem opened, server.wakes_closing woken,
    settled⟩

theorem Run.closes_all [Outlet σ] {starts : Server σ → Waiter → Prop} {moves : List Move}
    (run : Run starts server (.beginStop :: moves) last) (coherent : server.Coherent)
    (shuts : ∀ id ∈ server.openIds, .shut id ∈ moves) (id : Nat) : last.isOpen id = false := by
  obtain ⟨_, run⟩ := run.uncons
  rw [← Bool.not_eq_true]
  intro opened
  have before : server.isOpen id = true := run.isOpen coherent.beginStop rfl opened
  have shut := shuts id ((mem_openIds coherent.numbered id).mpr before)
  have closed := run.isOpen_shut coherent.beginStop rfl shut
  exact nomatch closed.symm.trans opened

theorem Stopping.isOpen [Outlet σ] {during after : List Move}
    (stopping : server.Stopping during after last) (coherent : server.Coherent) (id : Nat) :
    last.isOpen id = false :=
  stopping.run.closes_all coherent
    (fun other opened => List.mem_append_left _ (stopping.shuts other opened)) id

theorem Stopping.deserted [Outlet σ] {during after : List Move}
    (stopping : server.Stopping during after last) (coherent : server.Coherent)
    (looped : server.Looped) : last.Deserted := by
  obtain ⟨fits, run⟩ := stopping.run.uncons
  have begun : server.beginStop.Looped := looped.perform coherent fits
  have stopped := run.stopped rfl
  have ended := run.coherent coherent.beginStop
  have loop := run.looped coherent.beginStop begun
  have handlers := stopping.settled.handlers_eq_nil (stopping.isOpen coherent)
  constructor
  case stopped => exact stopped
  case queue => exact stopping.settled.attentive.drained stopped
  case waiters => exact run.waiters_eq_nil coherent.beginStop begun rfl (by simp)
  case handlers => exact handlers
  case handled =>
    intro id accepted
    refine ((ended.accepted id).mp accepted).resolve_left fun handed => ?_
    have reads := loop.handled id handed
    simp [handlers] at reads
  case counted => simpa [handlers] using loop.counted

theorem Numbered.exists_connection? (numbered : server.Numbered) {id : Nat} (positive : 1 ≤ id)
    (earlier : id < server.nextId) : ∃ connection, server.connection? id = some connection := by
  have member : id ∈ server.connections.map Connection.id := by
    rw [show server.connections.map Connection.id = _ from numbered, List.mem_range'_1]
    simp only [nextId] at earlier
    omega
  obtain ⟨connection, present, rfl⟩ := List.mem_map.mp member
  exact ⟨connection, numbered.connection?_of_mem present⟩

theorem Deserted.final (deserted : server.Deserted) (coherent : server.Coherent) {id : Nat}
    {standing : Standing} (stands : server.standing? id = some standing) :
    standing.isFinal = true := by
  have unqueued : standing ≠ .queued := by
    rintro rfl
    have member := (coherent.queued id).mpr stands
    simp [deserted.queue] at member
  have unhanded : standing ≠ .handed := by
    rintro rfl
    have handled := deserted.handled id ((coherent.accepted id).mpr (Or.inl stands))
    exact nomatch stands.symm.trans handled
  cases standing <;> first | rfl | contradiction

theorem Deserted.length_handled (deserted : server.Deserted) (coherent : server.Coherent) :
    server.served =
      (server.connections.filter fun connection => connection.standing = .handled).length := by
  have ids : ((server.connections.filter fun connection =>
      connection.standing = .handled).map Connection.id).Perm server.accepted := by
    refine (List.perm_ext_iff_of_nodup ?_ ?_).mpr fun id => ?_
    · refine (List.filter_sublist.map _).nodup ?_
      rw [show server.connections.map Connection.id = _ from coherent.numbered]
      exact List.nodup_range'
    · exact (List.pairwise_append.mp coherent.ordered).1.imp Nat.ne_of_lt
    · constructor
      · intro member
        obtain ⟨connection, present, rfl⟩ := List.mem_map.mp member
        obtain ⟨present, handled⟩ := List.mem_filter.mp present
        refine (coherent.accepted _).mpr (Or.inr ?_)
        simpa [standing?, coherent.numbered.connection?_of_mem present] using handled
      · intro accepted
        obtain ⟨connection, found, handled⟩ :=
          Option.map_eq_some_iff.mp (deserted.handled id accepted)
        refine List.mem_map.mpr ⟨connection, List.mem_filter.mpr ⟨?_, by simpa using handled⟩, ?_⟩
        · exact server.mem_of_connection? found
        · exact server.id_of_connection? found
  rw [deserted.counted, ← ids.length_eq, List.length_map]

theorem Deserted.cleared (deserted : server.Deserted) (coherent : server.Coherent) {first : Nat}
    (turnsAway : server.TurnsAway first) : server.Cleared first := by
  constructor
  case deaf => exact isListening_of_stopped deserted.stopped
  case refuses => exact await_stopped deserted.stopped
  case queue => exact deserted.queue
  case waiters => exact deserted.waiters
  case handlers => exact deserted.handlers
  case closed =>
    intro id positive earlier
    obtain ⟨connection, found⟩ := coherent.numbered.exists_connection? positive earlier
    have stands : server.standing? id = some connection.standing := by simp [standing?, found]
    have final := deserted.final coherent stands
    obtain ⟨same, again, once⟩ := coherent.closed_of_final stands final
    rw [found] at again
    obtain rfl := Option.some.inj again
    refine ⟨connection, found, once, ?_⟩
    cases standing : connection.standing <;> simp [standing, Standing.isFinal] at final ⊢
  case counted => exact deserted.length_handled coherent
  case turnsAway => exact turnsAway

theorem Run.turnsAway_stopped [Outlet σ] {starts : Server σ → Waiter → Prop} {moves : List Move}
    (run : Run starts server moves last) (coherent : server.Coherent)
    (stopped : server.stopped = true) {first : Nat} (turnsAway : server.TurnsAway first)
    (earlier : first ≤ server.nextId) : last.TurnsAway first ∧ first ≤ last.nextId := by
  induction run with
  | still => exact ⟨turnsAway, earlier⟩
  | move next run fits ih =>
      exact turnsAway_perform ih.1 ih.2 (run.coherent coherent) (run.stopped stopped) fits

theorem Deserted.stop [Outlet σ] (deserted : server.Deserted) (coherent : server.Coherent)
    (closed : ∀ id, server.isOpen id = false) :
    server.stop = { server with listening := false } := by
  have open_ : server.connections.filter Connection.isOpen = [] := by
    refine List.filter_eq_nil_iff.mpr fun connection present opened => ?_
    have shut := closed connection.id
    rw [isOpen_eq, coherent.numbered.connection?_of_mem present] at shut
    exact nomatch shut.symm.trans opened
  have kept : server.connections.map Connection.discard = server.connections := by
    refine (List.map_congr_left fun connection present => ?_).trans (List.map_id _)
    have stands : server.standing? connection.id = some connection.standing := by
      simp [standing?, coherent.numbered.connection?_of_mem present]
    have final := deserted.final coherent stands
    have unqueued : connection.standing ≠ .queued := by
      intro queued
      simp [queued, Standing.isFinal] at final
    simp [Connection.discard, unqueued]
  have moments : server.moments = [] := by
    simp [Server.moments, open_, momentsOf, deserted.waiters]
  have halt : server.halt = { server with listening := false } := by
    have ids : server.openIds = [] := by simp [openIds, open_]
    have begun : server.beginStop = server := by
      rw [beginStop, ← deserted.stopped]
    rw [halt, ids, List.foldl_nil, begun, drain, kept, deserted.waiters, List.tail_nil,
      ← deserted.queue, ← deserted.waiters]
  rw [Server.stop, moments, halt]
  rfl

theorem Stopping.discards [Outlet σ] {during after : List Move}
    (stopping : server.Stopping during after last) (coherent : server.Coherent)
    (looped : server.Looped) {id : Nat} (waits : id ∈ server.unpromised) :
    last.standing? id = some .discarded := by
  obtain ⟨_, run⟩ := stopping.run.uncons
  refine (run.discards coherent.beginStop rfl waits).resolve_left fun stays => ?_
  have queued := List.mem_of_mem_drop stays
  simp [(stopping.deserted coherent looped).queue] at queued

theorem Stopping.returns [Outlet σ] {during after : List Move}
    (stopping : server.Stopping during after last) (coherent : server.Coherent)
    (looped : server.Looped) {task : Nat} (here : task ∈ server.tasks) :
    ∃ before, before <+: .beginStop :: (during ++ .drain :: after) ∧
      (task, .returned) ∈ (before.foldl perform server).finished := by
  obtain ⟨fits, run⟩ := stopping.run.uncons
  have deserted := stopping.deserted coherent looped
  have gone : last.tasks = [] := by simp [tasks, deserted.waiters, deserted.handlers]
  obtain ⟨before, first, returned⟩ := run.returns coherent.beginStop (looped.perform coherent fits)
    rfl stopping.wakes here gone
  exact ⟨.beginStop :: before, List.prefix_cons_inj _ |>.mpr first, returned⟩

/-- From every state of a listening server, once a stop has come to its end, nothing is left behind,
and this stays so. A connection in the queue for which a task waits already is not discarded but
handed over; between operations there is none. -/
theorem stop_leaves_nothing [Outlet σ] {start server : Server σ} {moves : List Move}
    (fresh : start.Fresh) (run : Run alone start moves server)
    (listening : server.isListening = true) :
    (∃ during after last, server.Stopping during after last) ∧
    (server.Settled → server.unpromised = server.queue ∧
      ∃ during after, server.Stopping during after server.stop) ∧
    ∀ during after last, server.Stopping during after last →
      last.Cleared server.nextId ∧
      (∀ id ∈ server.unpromised, last.standing? id = some .discarded ∧
        Move.readFrom id (moves ++ .beginStop :: (during ++ .drain :: after)) = []) ∧
      (∀ task ∈ server.tasks, ∃ before, before <+: .beginStop :: (during ++ .drain :: after) ∧
        (task, .returned) ∈ (before.foldl perform server).finished) ∧
      last.stop = { last with listening := false } ∧
      ∀ more later, Run anybody last more later →
        later.Cleared server.nextId ∧ later.served = last.served ∧
          later.dispatcher = last.dispatcher ∧
          ∀ id, 1 ≤ id → id < last.nextId → later.standing? id = last.standing? id := by
  have running : server.stopped = false := by simpa using (Bool.and_eq_true_iff.mp listening).2
  have coherent := run.coherent fresh.coherent
  have looped := run.looped fresh.coherent fresh.looped
  refine ⟨exists_stopping coherent, fun settled => ⟨?_, _, _, settled.stopping coherent⟩, ?_⟩
  · rcases settled.calm with queue | waiters
    · simp [unpromised, queue]
    · simp [unpromised, waiters]
  intro during after last stopping
  obtain ⟨_, stopped⟩ := stopping.run.uncons
  have ended := stopped.coherent coherent.beginStop
  have deserted := stopping.deserted coherent looped
  have turned : server.beginStop.TurnsAway server.nextId := run.turnsAway fresh running
  obtain ⟨turns, earlier⟩ :=
    stopped.turnsAway_stopped coherent.beginStop rfl turned (Nat.le_refl _)
  have cleared := deserted.cleared ended turns
  refine ⟨cleared, ?queued, fun task here => stopping.returns coherent looped here,
    deserted.stop ended (stopping.isOpen coherent), ?later⟩
  case queued =>
    intro id waits
    have discarded := stopping.discards coherent looped waits
    refine ⟨discarded, (run.trans stopping.run).readFrom_eq_nil fresh fun accepted => ?_⟩
    rw [ended.accepted, discarded] at accepted
    simp at accepted
  case later =>
    intro more later continues
    obtain ⟨stays, served, dispatcher⟩ := continues.deserted ended deserted
    have turnsLater := (continues.turnsAway_stopped ended deserted.stopped turns earlier).1
    refine ⟨stays.cleared (continues.coherent ended) turnsLater, served, dispatcher, ?_⟩
    intro id positive before
    obtain ⟨connection, found⟩ := ended.numbered.exists_connection? positive before
    have stands : last.standing? id = some connection.standing := by simp [standing?, found]
    rw [stands]
    exact (continues.final ended stands (deserted.final ended stands)).1

/-- A stop while the loop reads the first client and the second, whose byte has arrived, waits in
the queue. -/
theorem stop_leaves_nothing_queued_byte :
    let start : Server Recorder := { path := "swi.sock", rejecting := false }
    let moves : List Move := [.listen, .await ⟨0, .serve⟩, .arrive { id := 0 }, .hand 0,
      .arrive { id := 0 }, .receive 2 [0x50]]
    let server := moves.foldl perform start
    start.Fresh ∧ Run alone start moves server ∧ server.isListening = true ∧ server.Settled ∧
      server.queue = [2] ∧ server.tasks = [0] ∧ server.stop.Cleared 3 ∧
      server.stop.standing? 1 = some .handled ∧ server.stop.standing? 2 = some .discarded ∧
      server.stop.served = 1 ∧ server.stop.dispatcher = server.dispatcher := by
  intro start moves server
  have fresh : start.Fresh := rfl
  have run : Run alone start moves server := by
    refine Run.move (.receive 2 [0x50]) (Run.move (.arrive { id := 0 }) (Run.move (.hand 0)
      (Run.move (.arrive { id := 0 }) (Run.move (.await ⟨0, .serve⟩)
      (Run.move .listen Run.still trivial) ?_) ?_) trivial) ?_) trivial
    · exact ⟨rfl, rfl, rfl⟩
    · exact ⟨rfl, rfl⟩
    · exact ⟨rfl, rfl⟩
  have listening : server.isListening = true := by decide
  have settled : server.Settled := by
    refine ⟨⟨fun handler reads => Or.inr ?_, fun stopped => by cases stopped⟩, Or.inr (by decide)⟩
    have first : handler.connection = 1 := by
      have only : server.handlers.map Handler.connection = [1] := by decide
      exact List.mem_singleton.mp (only ▸ List.mem_map_of_mem reads)
    rw [first]
    exact ⟨by decide, by decide, by decide, by decide⟩
  have stop : server.stop.standing? 1 = some .handled ∧ server.stop.served = 1 ∧
      server.stop.dispatcher = server.dispatcher := by
    simp only [server, moves, start]
    decide +kernel
  obtain ⟨_, ends, leaves⟩ := stop_leaves_nothing fresh run listening
  obtain ⟨_, during, after, stopping⟩ := ends settled
  obtain ⟨cleared, queued, _⟩ := leaves during after server.stop stopping
  exact ⟨fresh, run, listening, settled, by decide, by decide, cleared, stop.1,
    (queued 2 (by decide)).1, stop.2⟩

/-- A loop waits, and the byte of a client in the queue has arrived; the stop closes the connection
before the loop takes it, and the loop still reads the byte. -/
theorem stop_reads_promised :
    let start : Server Recorder := { path := "swi.sock" }
    let moves : List Move := [.listen, .await ⟨0, .serve⟩, .arrive { id := 0 }, .receive 1 [0x50]]
    let during : List Move :=
      [.shut 1, .hand 0, .consume 0 1 [0x50], .live (.left ⟨0, true, 1, 0⟩)]
    let server := moves.foldl perform start
    let stopping : List Move := .beginStop :: (during ++ [.drain])
    let last := stopping.foldl perform server
    start.Fresh ∧ Run alone start moves server ∧ server.isListening = true ∧ server.queue = [1] ∧
      Move.dispatched moves = [] ∧ server.Stopping during [] last ∧
      Move.readFrom 1 (moves ++ stopping) = [0x50] ∧
      last.dispatcher.store = ⟨{ running := true }, 1⟩ := by
  intro start moves during server stopping last
  have run : Run alone start moves server := by
    refine Run.move (.receive 1 [0x50]) (Run.move (.arrive { id := 0 })
      (Run.move (.await ⟨0, .serve⟩) (Run.move .listen Run.still trivial) ?_) ?_) trivial
    · exact ⟨rfl, rfl, rfl⟩
    · exact ⟨rfl, rfl⟩
  have stops : Run alone server stopping last := by
    refine Run.move .drain (Run.move (.live (.left ⟨0, true, 1, 0⟩))
      (Run.move (.consume 0 1 [0x50]) (Run.move (.hand 0) (Run.move (.shut 1)
      (Run.move .beginStop Run.still trivial) ?_) trivial) ?_) ?_) ?_
    · rfl
    · exact ⟨by decide, by decide⟩
    · exact ⟨by decide, by decide⟩
    · exact ⟨rfl, by decide⟩
  have settled : last.Settled := by
    have nobody : last.handlers = [] := by decide
    have queue : last.queue = [] := rfl
    refine ⟨⟨fun handler reads => ?_, fun _ => queue⟩, Or.inl queue⟩
    simp [nobody] at reads
  refine ⟨rfl, run, by decide, by decide, rfl, ⟨stops, ?_, ?_, settled⟩, by decide, by decide⟩
  · intro id opened
    have only : server.openIds = [1] := by decide
    rw [only, List.mem_singleton] at opened
    exact opened ▸ List.mem_cons_self
  · refine Wakes.append (by simp [during]) ⟨fun _ waiter waits => ?_, trivial⟩
    have nobody : (during.foldl perform server.beginStop).waiters = [] := by decide
    simp [nobody] at waits

end SteeringChannel.Server
