import SteeringChannel.Proofs.Server.Shutdown

/-!
Tasks that wait when a server is stopped, however many there are. The one that has waited longest
is told so; the others wait on, and only another stop could tell them.
-/

namespace SteeringChannel.Server

variable {σ : Type} {server last : Server σ} {starts : Server σ → Waiter → Prop}

theorem finished_await (server : Server σ) (waiter : Waiter) :
    server.finished <+: (server.await waiter).finished := by
  simp only [await]
  split
  · exact List.prefix_rfl
  · exact List.prefix_append _ _

theorem finished_leave (server : Server σ) (handler : Handler) :
    server.finished <+: (server.leave handler).finished := by
  simp only [leave]
  split
  · exact finished_await (server.release handler.connection) _
  · exact List.prefix_append _ _

theorem finished_perform [Outlet σ] (server : Server σ) {move : Move} (unreported : move ≠ .report) :
    server.finished <+: (server.perform move).finished := by
  cases move with
  | report => exact absurd rfl unreported
  | await waiter => exact server.finished_await waiter
  | leave handler => exact server.finished_leave handler
  | arrive arrival =>
      simp only [perform, register]
      split
      · exact List.prefix_rfl
      · exact List.prefix_append _ _
  | hand now =>
      simp only [perform, handFirst]
      split
      · exact List.prefix_append _ _
      · exact List.prefix_rfl
  | consume now id bytes =>
      simp only [perform, consume_eq]
      exact List.prefix_rfl
  | conclude id ending => exact List.prefix_append _ _
  | giveUp now id => exact List.prefix_append _ _
  | shut id => exact List.prefix_append _ _
  | live moment =>
      cases moment with
      | closeFailed id => exact List.prefix_rfl
      | left handler => exact finished_leave (server.note _) handler
      | woken waiter => exact List.prefix_append _ _
  | _ => exact List.prefix_rfl

theorem finished_foldl [Outlet σ] {moves : List Move} (unreported : .report ∉ moves)
    (server : Server σ) : server.finished <+: (moves.foldl perform server).finished := by
  induction moves generalizing server with
  | nil => exact List.prefix_rfl
  | cons move rest ih =>
      rw [List.mem_cons, not_or] at unreported
      exact (server.finished_perform fun same => unreported.1 same.symm).trans
        (ih unreported.2 (server.perform move))

theorem Ended.foldl [Outlet σ] {call : Waiter} (ended : server.Ended call) {moves : List Move}
    (unreported : .report ∉ moves) : (moves.foldl perform server).Ended call := by
  have kept := (finished_foldl unreported server).subset
  rw [Ended, path_foldl]
  refine ended.imp (fun refused => kept refused) (Or.imp ?_ ?_)
  · rintro ⟨accepts, id, opened, accepted⟩
    exact ⟨accepts, id, opened, kept accepted⟩
  · rintro ⟨handles, handled⟩
    exact ⟨handles, kept handled⟩

theorem EndsIn.ended [Outlet σ] {moves : List Move} {call : Waiter}
    (ends : server.EndsIn moves call) (unreported : .report ∉ moves) :
    (moves.foldl perform server).Ended call := by
  obtain ⟨before, ⟨after, rfl⟩, ended⟩ := ends
  rw [List.foldl_append]
  exact ended.foldl fun member => unreported (List.mem_append_right _ member)

theorem refused_of_woken [Outlet σ] {moves : List Move} {waiter : Waiter}
    (woken : .live (.woken waiter) ∈ moves) (unreported : .report ∉ moves) :
    (waiter.task, waiter.duty.refusal (.wasClosed server.path)) ∈
      (moves.foldl perform server).finished := by
  obtain ⟨before, after, rfl⟩ := List.append_of_mem woken
  rw [List.foldl_append, List.foldl_cons]
  refine (finished_foldl (fun member => unreported ?_) _).subset ?_
  · exact List.mem_append_right _ (List.mem_cons_of_mem _ member)
  · rw [← server.path_foldl before]
    exact List.mem_append_right _ (List.mem_singleton.mpr rfl)

/-- One stop of a server with whatever tasks, and all that happens beside it, up to a moment when
nothing more happens by itself. -/
structure Halting [Outlet σ] (server : Server σ) (during after : List Move)
    (last : Server σ) : Prop where
  run : Run anybody server (.beginStop :: (during ++ .drain :: after)) last
  once : .drain ∉ during ∧ .drain ∉ after
  shuts : ∀ id ∈ server.openIds, .shut id ∈ during
  wakes : server.beginStop.Wakes (during ++ .drain :: after)
  settled : last.Settled

theorem halting_closing [Outlet σ] {moments : List (Nat × Moment)}
    (run : Run anybody server (server.closing moments) last) (settled : last.Settled)
    (woken : ∀ waiter ∈ server.waiters.head?, ∃ time, (time, Moment.woken waiter) ∈ moments) :
    server.Halting (server.openIds.map .shut) (moments.map fun moment => .live moment.2) last :=
  ⟨run, by simp, fun _ opened => List.mem_map_of_mem opened, server.wakes_closing woken, settled⟩

theorem Settled.halting [Outlet σ] (settled : server.Settled) (coherent : server.Coherent) :
    server.Halting (server.openIds.map .shut)
      (server.moments.map fun moment => .live moment.2) server.stop := by
  obtain ⟨run, rests⟩ := settled.run_stop anybody coherent
  exact halting_closing run rests fun _ waits => mem_moments_woken waits

theorem exists_halting [Outlet σ] (coherent : server.Coherent) :
    ∃ during after last, server.Halting during after last := by
  obtain ⟨moments, last, run, settled, woken⟩ := exists_closing anybody coherent
  exact ⟨_, _, last, halting_closing run settled woken⟩

theorem Wakes.woken [Outlet σ] {during after : List Move}
    (wakes : server.Wakes (during ++ .drain :: after)) {waiter : Waiter}
    (waits : waiter ∈ (during.foldl perform server).waiters.head?) :
    .live (.woken waiter) ∈ after := by
  induction during generalizing server with
  | nil => exact wakes.1 rfl waiter waits
  | cons move rest ih => exact ih wakes.2 waits

theorem waiters_perform_drained [Outlet σ] (stopped : server.stopped = true)
    (queue : server.queue = []) {move : Move} (undrained : move ≠ .drain) :
    (server.perform move).waiters = server.waiters ∧ (server.perform move).queue = [] := by
  cases move with
  | drain => exact absurd rfl undrained
  | await waiter =>
      simp only [perform, await_stopped stopped]
      exact ⟨rfl, queue⟩
  | arrive arrival =>
      have refused : server.fate ≠ .queued := by simp [server.fate_of_stopped stopped]
      refine ⟨server.waiters_register arrival, (server.queue_register arrival).trans ?_⟩
      rw [if_neg refused, queue]
  | hand now =>
      have next : server.perform (.hand now) = server := by simp [perform, handFirst, queue]
      rw [next]
      exact ⟨rfl, queue⟩
  | consume now id bytes =>
      simp only [perform, consume_eq]
      exact ⟨rfl, queue⟩
  | leave handler =>
      exact ⟨waiters_leave_stopped stopped handler, (queue_leave server handler).trans queue⟩
  | live moment =>
      cases moment with
      | left handler =>
          have still : (server.note (Connection.disconnectedRecord handler.connection)).stopped =
            true := stopped
          exact ⟨waiters_leave_stopped still handler, (queue_leave _ handler).trans queue⟩
      | closeFailed id => exact ⟨rfl, queue⟩
      | woken waiter => exact ⟨rfl, queue⟩
  | _ => exact ⟨rfl, queue⟩

theorem Run.waiters_drained [Outlet σ] {moves : List Move} (run : Run starts server moves last)
    (stopped : server.stopped = true) (queue : server.queue = []) (undrained : .drain ∉ moves) :
    last.waiters = server.waiters ∧ last.queue = [] := by
  induction run with
  | still => exact ⟨rfl, queue⟩
  | move next run fits ih =>
      rw [List.mem_append, List.mem_singleton, not_or] at undrained
      obtain ⟨same, empty⟩ := ih undrained.1
      obtain ⟨waiters, still⟩ :=
        waiters_perform_drained (run.stopped stopped) empty fun drains => undrained.2 drains.symm
      exact ⟨waiters.trans same, still⟩

theorem Halting.waiters [Outlet σ] {during after : List Move}
    (halting : server.Halting during after last) :
    last.waiters = (during.foldl perform server.beginStop).waiters.tail ∧ last.queue = [] ∧
      last.stopped = true := by
  obtain ⟨_, run⟩ := halting.run.uncons
  obtain ⟨middle, before, rest⟩ := run.split
  obtain ⟨_, rest⟩ := rest.uncons
  obtain rfl : during.foldl perform server.beginStop = middle := before.foldl_eq
  have stopped := before.stopped rfl
  obtain ⟨waiters, queue⟩ := rest.waiters_drained stopped rfl halting.once.2
  exact ⟨waiters, queue, rest.stopped stopped⟩

/-- Wherever a stop finds the tasks, and whatever happens beside it, each task that reads comes to
its end, and of those that wait when the queue is emptied the first one does. The others wait on
until another stop empties the queue again. So nobody is left waiting just if one task at most
waited. -/
theorem stop_wakes_first [Outlet σ] {start server : Server σ} {moves : List Move}
    (fresh : start.Fresh) (run : Run anybody start moves server) :
    (∃ during after last, server.Halting during after last) ∧
    (server.Settled →
      (∃ during after, server.Halting during after server.stop) ∧
      server.stop.handlers = [] ∧ server.stop.waiters = server.waiters.tail ∧
      (server.stop.waiters = [] ↔ server.waiters.length ≤ 1) ∧
      (∀ handler ∈ server.handlers, server.stop.Ended handler.call) ∧
      ∀ waiter ∈ server.waiters.head?,
        (waiter.task, waiter.duty.refusal (.wasClosed server.path)) ∈ server.stop.finished) ∧
    ∀ during after last, server.Halting during after last →
      let course := .beginStop :: (during ++ .drain :: after)
      let emptied := during.foldl perform server.beginStop
      last.handlers = [] ∧ last.waiters = emptied.waiters.tail ∧
      (∀ handler ∈ server.handlers, server.EndsIn course handler.call) ∧
      (∀ waiter ∈ emptied.waiters.head?, server.EndsIn course waiter) ∧
      (∀ waiter ∈ server.waiters, waiter ∈ last.waiters ∨ server.EndsIn course waiter) ∧
      ∀ more later, Run anybody last more later → .drain ∉ more → later.waiters = last.waiters := by
  have coherent := run.coherent fresh.coherent
  have nobody {during after : List Move} {last : Server σ}
      (halting : server.Halting during after last) : last.handlers = [] :=
    halting.settled.handlers_eq_nil (halting.run.closes_all coherent fun id opened =>
      List.mem_append_left _ (halting.shuts id opened))
  have reading {during after : List Move} {last : Server σ}
      (halting : server.Halting during after last) (handler : Handler)
      (reads : handler ∈ server.handlers) :
      server.EndsIn (.beginStop :: (during ++ .drain :: after)) handler.call := by
    obtain ⟨_, stopping⟩ := halting.run.uncons
    exact (stopping.ends_reading coherent.beginStop rfl (nobody halting) reads).cons
  refine ⟨exists_halting coherent, fun settled => ?settled, fun during after last halting => ?_⟩
  case settled =>
    have halting := settled.halting coherent
    have shuts : Run anybody server.beginStop (server.openIds.map .shut)
        (server.openIds.foldl shut server.beginStop) := run_foldl_shut anybody server.openIds rfl
    have waiters : server.stop.waiters = server.waiters.tail := by
      rw [halting.waiters.1, shuts.foldl_eq, waiters_foldl_shut]
      rfl
    have unreported : .report ∉ server.closing server.moments := by simp [closing]
    have whole : (server.closing server.moments).foldl perform server = server.stop :=
      halting.run.foldl_eq
    refine ⟨⟨_, _, halting⟩, nobody halting, waiters, ?_, fun handler reads => ?_,
      fun waiter waits => ?_⟩
    · rw [waiters, ← List.length_eq_zero_iff, List.length_tail]
      omega
    · have ended := (reading halting handler reads).ended unreported
      exact whole ▸ ended
    · obtain ⟨time, woken⟩ := mem_moments_woken waits
      have member : Move.live (.woken waiter) ∈ server.closing server.moments := by
        simp only [closing, List.mem_cons, List.mem_append, List.mem_map]
        exact Or.inr (Or.inr (Or.inr ⟨_, woken, rfl⟩))
      rw [← whole]
      exact refused_of_woken member unreported
  · obtain ⟨waiters, queue, stopped⟩ := halting.waiters
    obtain ⟨_, stopping⟩ := halting.run.uncons
    refine ⟨nobody halting, waiters, reading halting, fun waiter waits => ?_,
      fun waiter waits => ?_, fun more later continues undrained => ?_⟩
    · have woken := halting.wakes.woken waits
      exact endsIn_of_woken (List.mem_cons_of_mem _ (List.mem_append_right _
        (List.mem_cons_of_mem _ woken)))
    · exact (stopping.ends_waiting coherent.beginStop rfl halting.wakes (nobody halting)
        waits).imp_right EndsIn.cons
    · exact (continues.waiters_drained stopped queue undrained).1

/-- A stop while a loop reads a client and two tasks wait to accept the next one. -/
theorem stop_wakes_first_of_two :
    let start : Server Recorder := { path := "swi.sock" }
    let moves : List Move := [.listen, .await ⟨0, .serve⟩, .arrive { id := 0 }, .hand 0,
      .await ⟨1, .accept⟩, .await ⟨2, .accept⟩]
    let server := moves.foldl perform start
    start.Fresh ∧ Run anybody start moves server ∧ server.Settled ∧
      server.stop.Ended ⟨0, .serve⟩ ∧ server.stop.waiters = [⟨2, .accept⟩] ∧
      (1, .refused (.wasClosed "swi.sock")) ∈ server.stop.finished := by
  intro start moves server
  have fresh : start.Fresh := rfl
  have run : Run anybody start moves server := by
    refine Run.move (.await ⟨2, .accept⟩) (Run.move (.await ⟨1, .accept⟩) (Run.move (.hand 0)
      (Run.move (.arrive { id := 0 }) (Run.move (.await ⟨0, .serve⟩)
      (Run.move .listen Run.still trivial) ?_) ⟨rfl, rfl⟩) trivial) ?_) ?_
    all_goals exact trivial
  have handlers : server.handlers = [⟨0, true, 1, 0⟩] := by decide
  have settled : server.Settled := by
    refine ⟨⟨fun handler reads => Or.inr ?_, fun stopped => by cases stopped⟩, Or.inl (by decide)⟩
    rw [handlers, List.mem_singleton] at reads
    rw [reads]
    exact ⟨by decide, by decide, by decide, by decide⟩
  obtain ⟨_, ends, _⟩ := stop_wakes_first fresh run
  obtain ⟨_, _, waiters, _, reading, woken⟩ := ends settled
  have waits : server.waiters = [⟨1, .accept⟩, ⟨2, .accept⟩] := by decide
  refine ⟨fresh, run, settled, reading ⟨0, true, 1, 0⟩ (by simp [handlers]), ?_, ?_⟩
  · rw [waiters, waits]
    rfl
  · exact woken ⟨1, .accept⟩ (by simp [waits])

/-- Of two tasks that wait to accept a client, one still waits when the server has been stopped. -/
theorem stop_leaves_second_waiting :
    let start : Server Recorder := { path := "swi.sock" }
    let moves : List Move := [.listen, .await ⟨0, .accept⟩, .await ⟨1, .accept⟩]
    let server := moves.foldl perform start
    start.Fresh ∧ Run anybody start moves server ∧ server.isListening = true ∧ server.Settled ∧
      server.stop.Settled ∧ server.stop.waiters = [⟨1, .accept⟩] ∧
      server.stop.finished = [(0, .refused (.wasClosed "swi.sock"))] := by
  intro start moves server
  have run : Run anybody start moves server := by
    refine Run.move (.await ⟨1, .accept⟩) (Run.move (.await ⟨0, .accept⟩)
      (Run.move .listen Run.still trivial) ?_) ?_
    all_goals exact trivial
  have nobody : server.handlers = [] := by decide
  have settled : server.Settled := by
    refine ⟨⟨fun handler reads => ?_, fun _ => by decide⟩, Or.inl (by decide)⟩
    simp [nobody] at reads
  have fresh : start.Fresh := rfl
  have stop : server.stop.waiters = [⟨1, .accept⟩] ∧
      server.stop.finished = [(0, .refused (.wasClosed "swi.sock"))] := by
    simp only [server, moves, start]
    decide +kernel
  exact ⟨fresh, run, by decide, settled, (settled.stop (run.coherent fresh.coherent)).2, stop⟩

end SteeringChannel.Server
