import SteeringChannel.Proofs.Server.Coherence

/-!
The policy of a single connection. The slot is taken when a connection is queued, taken again when
it is handed over, and freed only by the connection that holds it; a connection that finds the slot
taken leaves no trace but its record.
-/

namespace SteeringChannel

def Standing.isFinal : Standing → Bool
  | .queued | .handed => false
  | .handled | .discarded | .rejected | .turnedAway => true

namespace Server

variable {σ : Type} {server : Server σ}

theorem leave_standing (handler : Handler) {id : Nat} (different : id ≠ handler.connection) :
    (server.leave handler).standing? id = server.standing? id := by
  obtain ⟨waiters, records, finished, shape⟩ := server.leave_shape handler
  rw [shape]
  exact (server.standing?_release handler.connection id).trans (if_neg different)

theorem Coherent.final_ne_handled (coherent : server.Coherent) {id other : Nat}
    {standing : Standing} (stands : server.standing? id = some standing)
    (final : standing.isFinal = true) (handled : other ∈ server.handlers.map Handler.connection) :
    id ≠ other := by
  intro same
  have handed := coherent.handling other handled
  rw [← same, stands] at handed
  rw [Option.some.inj handed] at final
  simp [Standing.isFinal] at final

theorem Coherent.final_perform [Outlet σ] (coherent : server.Coherent)
    {starts : Server σ → Waiter → Prop} {move : Move} (fits : server.Fits starts move) {id : Nat}
    {standing : Standing} (stands : server.standing? id = some standing)
    (final : standing.isFinal = true) : (server.perform move).standing? id = some standing := by
  cases move with
  | await waiter =>
      obtain ⟨waiters, records, finished, shape⟩ := server.await_shape waiter
      simp only [Server.perform, shape]
      exact stands
  | arrive arrival =>
      have earlier := coherent.numbered.lt_nextId stands
      simp only [Server.perform]
      rw [standing?_register coherent.numbered, if_neg (Nat.ne_of_lt earlier)]
      exact stands
  | hand now =>
      simp only [Server.perform, Server.handFirst]
      split
      next first rest waiter others queue _ =>
        have different : id ≠ first := by
          intro same
          have queued := (coherent.queued first).mp (by simp [queue])
          rw [← same, stands] at queued
          rw [Option.some.inj queued] at final
          simp [Standing.isFinal] at final
        exact (server.standing?_hand now waiter first id).trans
          ((if_neg different).trans stands)
      next => exact stands
  | receive other bytes => simpa [Server.perform] using stands
  | finish other ending => simpa [Server.perform] using stands
  | consume now other bytes => simpa [Server.perform] using stands
  | conclude other ending => simpa [Server.perform] using stands
  | giveUp now other => simpa [Server.perform] using stands
  | shut other => simpa [Server.perform] using stands
  | drain =>
      have unqueued : standing ≠ .queued := by
        rintro rfl
        simp [Standing.isFinal] at final
      simp [Server.perform, standing?_drain, stands, unqueued]
  | leave handler =>
      have different := coherent.final_ne_handled stands final (List.mem_map_of_mem fits.1)
      exact (leave_standing handler different).trans stands
  | live moment =>
      cases moment with
      | left handler =>
          have different := coherent.final_ne_handled stands final (List.mem_map_of_mem fits.1)
          exact (leave_standing handler different).trans stands
      | closeFailed other => exact stands
      | woken waiter => exact stands
  | listen => exact stands
  | beginStop => exact stands
  | report => exact stands

theorem Run.final [Outlet σ] {starts : Server σ → Waiter → Prop} {start : Server σ}
    {moves : List Move} (run : Run starts start moves server) (initial : start.Coherent) {id : Nat}
    {standing : Standing} (stands : start.standing? id = some standing)
    (final : standing.isFinal = true) :
    server.standing? id = some standing ∧ ∀ now bytes, Move.consume now id bytes ∉ moves := by
  induction run with
  | still => exact ⟨stands, fun _ _ => List.not_mem_nil⟩
  | move next run fits ih =>
      obtain ⟨stood, unread⟩ := ih
      have coherent := run.coherent initial
      refine ⟨coherent.final_perform fits stood final, fun now bytes member => ?_⟩
      rcases List.mem_append.mp member with before | last
      · exact unread now bytes before
      · obtain rfl := List.mem_singleton.mp last
        exact coherent.final_ne_handled stood final fits.1 rfl

theorem Coherent.closed_of_final (coherent : server.Coherent) {id : Nat} {standing : Standing}
    (stands : server.standing? id = some standing) (final : standing.isFinal = true) :
    ∃ connection, server.connection? id = some connection ∧ connection.closes = 1 := by
  obtain ⟨connection, found, _⟩ := Option.map_eq_some_iff.mp stands
  have once := coherent.closedOnce connection (server.mem_of_connection? found)
  have closed : connection.closes ≠ 0 := by
    intro opened
    have isOpen : server.isOpen id = true := by
      simp [isOpen_eq, found, Connection.isOpen, opened]
    rcases coherent.openAdmitted id isOpen with stood | stood <;>
      rw [stands] at stood <;> rw [Option.some.inj stood] at final <;>
        simp [Standing.isFinal] at final
  exact ⟨connection, found, by omega⟩

/-- The slot belongs to the open connection, and to the one in the queue. -/
def Exclusive (server : Server σ) : Prop :=
  ∀ id, server.isOpen id = true ∨ id ∈ server.queue → server.active = some id

namespace Exclusive

variable (exclusive : server.Exclusive)
include exclusive

theorem narrow {other : Server σ} (opened : ∀ id, other.isOpen id = true → server.isOpen id = true)
    (queued : ∀ id ∈ other.queue, id ∈ server.queue) (active : other.active = server.active) :
    other.Exclusive := by
  intro id present
  rw [active]
  exact exclusive id (present.imp (opened id) (queued id))

theorem shut (id : Nat) : (server.shut id).Exclusive := by
  refine exclusive.narrow ?_ (fun _ queued => queued) rfl
  intro other isOpen
  rw [isOpen_shut] at isOpen
  split at isOpen
  · simp at isOpen
  · exact isOpen

theorem dismiss (id : Nat) (record : Journal.Record) : (server.dismiss id record).Exclusive :=
  exclusive.shut id

theorem release (coherent : server.Coherent) {id : Nat}
    (handled : id ∈ server.handlers.map Handler.connection) (closed : server.isOpen id = false) :
    (server.release id).Exclusive := by
  intro other present
  rw [isOpen_release] at present
  have different : other ≠ id := by
    rintro rfl
    rcases present with isOpen | queued
    · simp [closed] at isOpen
    · exact coherent.handled_unqueued handled queued
  have active := exclusive other present
  change (if server.active = some id then none else server.active) = some other
  rw [if_neg (by simpa [active] using different)]
  exact active

theorem leave (coherent : server.Coherent) {handler : Handler}
    (present : handler ∈ server.handlers) (closed : server.isOpen handler.connection = false) :
    (server.leave handler).Exclusive := by
  obtain ⟨waiters, records, finished, shape⟩ := server.leave_shape handler
  rw [shape]
  exact exclusive.release coherent (List.mem_map_of_mem present) closed

theorem handFirst (now : Rat) : (server.handFirst now).Exclusive := by
  simp only [Server.handFirst]
  split
  next id rest waiter others queue _ =>
    have slot : server.active = some id := exclusive id (Or.inr (by simp [queue]))
    intro other present
    change some id = some other
    rw [← slot]
    refine exclusive other (present.imp ?_ ?_)
    · intro isOpen
      exact (isOpen_hand server now waiter id other).symm.trans isOpen
    · intro waits
      rw [queue]
      exact List.mem_cons_of_mem id waits
  next => exact exclusive

theorem register (coherent : server.Coherent) (rejecting : server.rejecting = true)
    {arrival : Connection} (fresh : arrival.closes = 0) : (server.register arrival).Exclusive := by
  intro id present
  rw [isOpen_register coherent.numbered arrival fresh, queue_register] at present
  rw [active_register]
  rcases server.fate_cases with ⟨fate, _⟩ | ⟨fate, _⟩ | ⟨fate, _, accepting | vacant⟩
  · refine (if_neg (by simp [fate])).trans (exclusive id ?_)
    split at present <;> simp_all
  · refine (if_neg (by simp [fate])).trans (exclusive id ?_)
    split at present <;> simp_all
  · simp [rejecting] at accepting
  · -- The slot was free, so nothing was open and nothing waited.
    have nothing : ¬ (server.isOpen id = true ∨ id ∈ server.queue) := by
      intro before
      have taken := exclusive id before
      simp [vacant] at taken
    rw [not_or] at nothing
    by_cases same : id = server.nextId
    · simp [fate, rejecting, same]
    · simp [same, fate, nothing.1, nothing.2] at present

theorem perform [Outlet σ] (coherent : server.Coherent) (rejecting : server.rejecting = true)
    {starts : Server σ → Waiter → Prop} {move : Move} (fits : server.Fits starts move) :
    (server.perform move).Exclusive := by
  cases move with
  | listen => exact exclusive
  | await waiter =>
      obtain ⟨waiters, records, finished, shape⟩ := server.await_shape waiter
      simp only [Server.perform, shape]
      exact exclusive
  | arrive arrival => exact exclusive.register coherent rejecting fits.2
  | receive id bytes =>
      refine exclusive.narrow ?_ (fun _ queued => queued) rfl
      simp [Server.perform]
  | finish id ending =>
      refine exclusive.narrow ?_ (fun _ queued => queued) rfl
      simp [Server.perform]
  | hand now => exact exclusive.handFirst now
  | consume now id bytes =>
      refine exclusive.narrow ?_ ?_ ?_
      · simp [Server.perform]
      · simp [Server.perform, consume_eq, update]
      · simp [Server.perform, consume_eq, update]
  | conclude id ending => exact exclusive.dismiss id _
  | giveUp now id => exact exclusive.dismiss id _
  | leave handler => exact exclusive.leave coherent fits.1 fits.2
  | beginStop => exact exclusive
  | shut id => exact exclusive.shut id
  | drain =>
      refine exclusive.narrow ?_ (by simp [Server.perform, drain]) rfl
      simp [Server.perform]
  | live moment =>
      cases moment with
      | closeFailed id => exact exclusive
      | left handler =>
          have noted : (server.note (Connection.disconnectedRecord handler.connection)).Exclusive :=
            exclusive
          exact noted.leave (coherent.elsewhere _ _ _ _) fits.1 fits.2
      | woken waiter => exact exclusive
  | report => exact exclusive

end Exclusive

theorem Fresh.exclusive (fresh : server.Fresh) : server.Exclusive := by
  rw [fresh]
  simp [Exclusive, isOpen, connection?]

theorem Run.exclusive [Outlet σ] {starts : Server σ → Waiter → Prop} {start : Server σ}
    {moves : List Move} (run : Run starts start moves server) (initial : start.Coherent)
    (rejecting : start.rejecting = true) (exclusive : start.Exclusive) : server.Exclusive := by
  induction run with
  | still => exact exclusive
  | move next run fits ih =>
      exact ih.perform (run.coherent initial) (run.policy.1.trans rejecting) fits

theorem register_of_taken (arrival : Connection) (rejecting : server.rejecting = true)
    (taken : server.active ≠ none) : server.fate.isFinal = true ∧
      (server.register arrival).active = server.active ∧
      (server.register arrival).queue = server.queue ∧
      (server.register arrival).dispatcher = server.dispatcher := by
  have refused : server.fate.isFinal = true ∧ server.fate ≠ .queued := by
    rcases server.fate_cases with ⟨fate, _⟩ | ⟨fate, _⟩ | ⟨_, _, accepting | vacant⟩
    · simp [fate, Standing.isFinal]
    · simp [fate, Standing.isFinal]
    · simp [rejecting] at accepting
    · exact absurd vacant taken
  refine ⟨refused.1, ?_, ?_, server.dispatcher_register arrival⟩
  · rw [active_register, if_neg fun admitted => refused.2 admitted.1]
  · rw [queue_register, if_neg refused.2]

/-- Whatever tasks start and whatever happens, a rejecting server has one open connection at most,
which holds the slot. An arrival that finds the slot taken is closed, is never queued, accepted or
read, and leaves the slot, the queue and the store alone. -/
theorem rejecting_excludes [Outlet σ] {starts : Server σ → Waiter → Prop} {start server : Server σ}
    {moves : List Move} (fresh : start.Fresh) (rejecting : start.rejecting = true)
    (run : Run starts start moves server) :
    (∀ id, server.isOpen id = true → server.active = some id) ∧
    (∀ first second, server.isOpen first = true → server.isOpen second = true →
      first = second) ∧
    ∀ arrival : Connection, arrival.taken = [] → arrival.closes = 0 → server.active ≠ none →
      (∀ now, server.arrive now arrival = server.register arrival) ∧
      (server.register arrival).active = server.active ∧
      (server.register arrival).queue = server.queue ∧
      (server.register arrival).dispatcher = server.dispatcher ∧
      ∀ {after : List Move} {later : Server σ}, Run starts (server.register arrival) after later →
        (∃ connection, later.connection? server.nextId = some connection ∧
          connection.closes = 1) ∧
        server.nextId ∉ later.queue ∧ server.nextId ∉ later.accepted ∧
        later.taken server.nextId = [] ∧
        ∀ now bytes, Move.consume now server.nextId bytes ∉ after := by
  have coherent := run.coherent fresh.coherent
  have exclusive := run.exclusive fresh.coherent rejecting fresh.exclusive
  have policy := run.policy.1.trans rejecting
  refine ⟨fun id isOpen => exclusive id (Or.inl isOpen), ?_, ?_⟩
  · intro first second firstOpen secondOpen
    have slot := exclusive first (Or.inl firstOpen)
    rw [exclusive second (Or.inl secondOpen)] at slot
    exact (Option.some.inj slot).symm
  · intro arrival untaken unclosed taken
    obtain ⟨final, active, queue, dispatcher⟩ := register_of_taken arrival policy taken
    refine ⟨?_, active, queue, dispatcher, ?_⟩
    · intro now
      refine if_neg fun queued => ?_
      simp [queued, Standing.isFinal] at final
    · intro after later rest
      have registered := coherent.register untaken unclosed
      have stands : (server.register arrival).standing? server.nextId = some server.fate := by
        rw [standing?_register coherent.numbered, if_pos rfl]
      obtain ⟨stood, unread⟩ := rest.final registered stands final
      have after := rest.coherent registered
      have unqueued : server.nextId ∉ later.queue := by
        rw [after.queued, stood]
        intro same
        simp [Option.some.inj same, Standing.isFinal] at final
      have unaccepted : server.nextId ∉ later.accepted := by
        rw [after.accepted, stood]
        rcases server.fate_cases with ⟨fate, _⟩ | ⟨fate, _⟩ | ⟨fate, _⟩ <;> simp [fate]
      exact ⟨after.closed_of_final stood final, unqueued, unaccepted,
        after.untaken _ unaccepted, unread⟩

/-- A second client that comes with a byte while the first one waits in the queue. -/
theorem rejecting_excludes_second :
    let start : Server Recorder := { path := "swi.sock" }
    let first := start.register { id := 0 }
    let second : Connection := { id := 0, unread := [0x53] }
    start.Fresh ∧ start.rejecting = true ∧
      Run (fun _ _ => True) start [.arrive { id := 0 }] first ∧
      first.isOpen 1 = true ∧ first.active = some 1 ∧
      (first.register second).active = some 1 ∧ (first.register second).queue = [1] ∧
      (∃ connection, (first.register second).connection? 2 = some connection ∧
        connection.closes = 1) := by
  intro start first second
  have fresh : start.Fresh := rfl
  have run : Run (fun _ _ => True) start [.arrive { id := 0 }] first :=
    Run.one (.arrive { id := 0 }) ⟨rfl, rfl⟩
  obtain ⟨slot, _, refuses⟩ := rejecting_excludes fresh rfl run
  obtain ⟨_, active, queue, _, closed⟩ := refuses second rfl rfl (by decide)
  have opened : first.isOpen 1 = true := by decide
  exact ⟨fresh, rfl, run, opened, slot 1 opened, active.trans (slot 1 opened), queue,
    (closed Run.still).1⟩

end Server
end SteeringChannel
