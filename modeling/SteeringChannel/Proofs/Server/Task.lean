import SteeringChannel.Proofs.Server.Deadline
import SteeringChannel.Proofs.Server.Stopped

/-!
The tasks of a server from the beginning of its stop on. A task that reads ends when it leaves its
connection, and one that waits either gets a connection before the queue is emptied, or is woken by
that, or waits on.
-/

namespace SteeringChannel

def Handler.call (handler : Handler) : Waiter :=
  ⟨handler.task, if handler.repeats then .serve else .handle⟩

namespace Server

variable {σ : Type} {server last : Server σ} {starts : Server σ → Waiter → Prop}

def tasks (server : Server σ) : List Nat :=
  server.waiters.map Waiter.task ++ server.handlers.map Handler.task

def Ended (server : Server σ) (call : Waiter) : Prop :=
  (call.task, call.duty.refusal (.wasClosed server.path)) ∈ server.finished ∨
    call.duty = .accept ∧ (∃ id opened, (call.task, .accepted id opened) ∈ server.finished) ∨
    call.duty = .handle ∧ (call.task, .handled) ∈ server.finished

theorem call_handler? {waiter : Waiter} {now : Rat} {id : Nat} {handler : Handler}
    (becomes : waiter.handler? now id = some handler) : handler.call = waiter := by
  obtain ⟨task, duty⟩ := waiter
  cases duty <;> simp only [Waiter.handler?, Option.some.injEq, reduceCtorEq] at becomes
  · exact becomes ▸ rfl
  · exact becomes ▸ rfl

theorem handler?_of_duty {waiter : Waiter} (keeps : waiter.duty ≠ .accept) (now : Rat) (id : Nat) :
    ∃ handler, waiter.handler? now id = some handler := by
  obtain ⟨task, duty⟩ := waiter
  cases duty <;> simp [Waiter.handler?] at keeps ⊢

theorem ended_leave (stopped : server.stopped = true) (handler : Handler) :
    (server.leave handler).Ended handler.call := by
  have released : (server.release handler.connection).stopped = true := stopped
  simp only [leave, Handler.call]
  split
  · rw [await_stopped released]
    exact Or.inl (List.mem_append_right _ (List.mem_singleton.mpr rfl))
  · exact Or.inr (Or.inr ⟨rfl, List.mem_append_right _ (List.mem_singleton.mpr rfl)⟩)

theorem waiting_handFirst {call : Waiter} (waits : call ∈ server.waiters) (now : Rat) :
    call ∈ (server.handFirst now).waiters ∨
      (∃ handler ∈ (server.handFirst now).handlers, handler.call = call) ∨
      (server.handFirst now).Ended call := by
  simp only [handFirst]
  split
  next id rest waiter others _ waiters =>
    rw [waiters, List.mem_cons] at waits
    rcases waits with rfl | later
    · by_cases accepts : call.duty = .accept
      · refine Or.inr (Or.inr (Or.inr (Or.inl ⟨accepts, id, server.isOpen id, ?_⟩)))
        simp [hand, accepts]
      · obtain ⟨handler, becomes⟩ := handler?_of_duty accepts now id
        refine Or.inr (Or.inl ⟨handler, ?_, call_handler? becomes⟩)
        simp [hand, becomes]
    · exact Or.inl later
  next => exact Or.inl waits

theorem waiting_perform [Outlet σ] (stopped : server.stopped = true) (move : Move) {call : Waiter}
    (waits : call ∈ server.waiters) :
    call ∈ (server.perform move).waiters ∨
      (∃ handler ∈ (server.perform move).handlers, handler.call = call) ∨
      (server.perform move).Ended call ∨ move = .drain ∧ call ∈ server.waiters.head? := by
  cases move with
  | hand now =>
      rcases waiting_handFirst waits now with still | reads | ended
      · exact Or.inl still
      · exact Or.inr (Or.inl reads)
      · exact Or.inr (Or.inr (Or.inl ended))
  | drain =>
      cases waiters : server.waiters with
      | nil => simp [waiters] at waits
      | cons first others =>
          rw [waiters, List.mem_cons] at waits
          rcases waits with rfl | later
          · exact Or.inr (Or.inr (Or.inr ⟨rfl, rfl⟩))
          · exact Or.inl (by simpa [perform, drain, waiters] using later)
  | await waiter =>
      simp only [perform, await_stopped stopped]
      exact Or.inl waits
  | arrive arrival => exact Or.inl (by simpa [perform] using waits)
  | consume now id bytes =>
      simp only [perform, consume_eq]
      exact Or.inl waits
  | leave handler =>
      refine Or.inl ?_
      rw [perform, waiters_leave_stopped stopped]
      exact waits
  | live moment =>
      cases moment with
      | left handler =>
          refine Or.inl ?_
          have still : (server.note (Connection.disconnectedRecord handler.connection)).stopped =
            true := stopped
          rw [perform, live, waiters_leave_stopped still]
          exact waits
      | closeFailed id => exact Or.inl waits
      | woken waiter => exact Or.inl waits
  | _ => exact Or.inl waits

theorem reading_perform [Outlet σ] (coherent : server.Coherent) (stopped : server.stopped = true)
    {move : Move} (fits : server.Fits starts move) {handler : Handler}
    (reads : handler ∈ server.handlers) :
    (∃ since, { handler with since := since } ∈ (server.perform move).handlers) ∨
      (server.perform move).Ended handler.call := by
  have left (server : Server σ) (coherent : server.Coherent) (stopped : server.stopped = true)
      {leaver : Handler} (leaves : leaver ∈ server.handlers) (reads : handler ∈ server.handlers) :
      (∃ since, { handler with since := since } ∈ (server.leave leaver).handlers) ∨
        (server.leave leaver).Ended handler.call := by
    by_cases same : handler.connection = leaver.connection
    · exact Or.inr (coherent.handler_unique reads leaves same ▸ ended_leave stopped leaver)
    · exact Or.inl ⟨handler.since, server.mem_leave reads same⟩
  cases move with
  | await waiter =>
      simp only [perform, await_stopped stopped]
      exact Or.inl ⟨handler.since, reads⟩
  | arrive arrival => exact Or.inl ⟨handler.since, by simpa [perform] using reads⟩
  | hand now =>
      refine Or.inl ⟨handler.since, ?_⟩
      simp only [perform, handFirst]
      split
      · exact List.mem_append_left _ reads
      · exact reads
  | consume now id bytes => exact Or.inl (mem_handlers_consume reads now id bytes)
  | leave leaver => exact left server coherent stopped fits.1 reads
  | live moment =>
      cases moment with
      | left leaver =>
          exact left (server.note (Connection.disconnectedRecord leaver.connection))
            (coherent.elsewhere _ _ _ _) stopped fits.1 reads
      | closeFailed id => exact Or.inl ⟨handler.since, reads⟩
      | woken waiter => exact Or.inl ⟨handler.since, reads⟩
  | _ => exact Or.inl ⟨handler.since, reads⟩

/-- Each time the queue is emptied, the task that this wakes notices it later. -/
def Wakes [Outlet σ] (server : Server σ) : List Move → Prop
  | [] => True
  | move :: rest =>
      (move = .drain → ∀ waiter ∈ server.waiters.head?, .live (.woken waiter) ∈ rest) ∧
        (server.perform move).Wakes rest

def EndsIn [Outlet σ] (server : Server σ) (moves : List Move) (call : Waiter) : Prop :=
  ∃ before, before <+: moves ∧ (before.foldl perform server).Ended call

theorem EndsIn.cons [Outlet σ] {move : Move} {rest : List Move} {call : Waiter}
    (ends : (server.perform move).EndsIn rest call) : server.EndsIn (move :: rest) call := by
  obtain ⟨before, first, ended⟩ := ends
  exact ⟨move :: before, (List.prefix_cons_inj move).mpr first, ended⟩

theorem endsIn_of_woken [Outlet σ] {moves : List Move} {call : Waiter}
    (woken : .live (.woken call) ∈ moves) : server.EndsIn moves call := by
  obtain ⟨before, after, rfl⟩ := List.append_of_mem woken
  refine ⟨before ++ [.live (.woken call)], by simp, ?_⟩
  rw [List.foldl_append]
  exact Or.inl (List.mem_append_right _ (List.mem_singleton.mpr rfl))

theorem Run.ends_reading [Outlet σ] {moves : List Move} (run : Run starts server moves last)
    (coherent : server.Coherent) (stopped : server.stopped = true) (nobody : last.handlers = [])
    {handler : Handler} (reads : handler ∈ server.handlers) : server.EndsIn moves handler.call := by
  induction moves generalizing server handler with
  | nil =>
      obtain rfl : server = last := run.foldl_eq
      simp [nobody] at reads
  | cons move rest ih =>
      obtain ⟨fits, run⟩ := run.uncons
      rcases reading_perform coherent stopped fits reads with ⟨since, stays⟩ | ended
      · have ends := ih run (coherent.perform fits) (stopped_stays stopped move) stays
        exact ends.cons
      · exact ⟨[move], by simp, ended⟩

theorem Run.ends_waiting [Outlet σ] {moves : List Move} (run : Run starts server moves last)
    (coherent : server.Coherent) (stopped : server.stopped = true) (wakes : server.Wakes moves)
    (nobody : last.handlers = []) {call : Waiter} (waits : call ∈ server.waiters) :
    call ∈ last.waiters ∨ server.EndsIn moves call := by
  induction moves generalizing server with
  | nil =>
      obtain rfl : server = last := run.foldl_eq
      exact Or.inl waits
  | cons move rest ih =>
      obtain ⟨fits, run⟩ := run.uncons
      have coherent := coherent.perform fits
      have still := stopped_stays stopped move
      rcases waiting_perform stopped move waits with stays | ⟨handler, reads, rfl⟩ | ended | drains
      · exact (ih run coherent still wakes.2 stays).imp_right EndsIn.cons
      · exact Or.inr (run.ends_reading coherent still nobody reads).cons
      · exact Or.inr ⟨[move], by simp, ended⟩
      · exact Or.inr (endsIn_of_woken (wakes.1 drains.1 call drains.2)).cons

theorem Run.returns [Outlet σ] {moves : List Move} {task : Nat}
    (run : Run alone server moves last) (coherent : server.Coherent) (looped : server.Looped)
    (stopped : server.stopped = true) (wakes : server.Wakes moves) (here : task ∈ server.tasks)
    (gone : last.tasks = []) :
    ∃ before, before <+: moves ∧ (task, .returned) ∈ (before.foldl perform server).finished := by
  simp only [tasks, List.append_eq_nil_iff, List.map_eq_nil_iff] at gone
  have returned {call : Waiter} (serves : call.duty = .serve) (ends : server.EndsIn moves call) :
      ∃ before, before <+: moves ∧
        (call.task, .returned) ∈ (before.foldl perform server).finished := by
    obtain ⟨before, first, ended⟩ := ends
    simp only [Ended, serves, Duty.refusal, reduceCtorEq, false_and, or_false] at ended
    exact ⟨before, first, ended⟩
  rcases List.mem_append.mp here with waiting | reading
  · obtain ⟨waiter, waits, rfl⟩ := List.mem_map.mp waiting
    refine returned (looped.serving waiter waits) ?_
    refine (run.ends_waiting coherent stopped wakes gone.2 waits).resolve_left fun stays => ?_
    simp [gone.1] at stays
  · obtain ⟨handler, reads, rfl⟩ := List.mem_map.mp reading
    have serves : handler.call.duty = .serve := by
      simp [Handler.call, looped.repeating handler reads]
    exact returned serves (run.ends_reading coherent stopped gone.2 reads)

end Server
end SteeringChannel
