import SteeringChannel.Proofs.Server.Idle

/-!
Who is admitted. A server that is not stopped has its slot free as soon as no connection is open,
and whoever then comes is put into the queue or handed over, and stays open.
-/

namespace SteeringChannel.Server

variable {σ : Type} [Outlet σ] {server other : Server σ} {starts : Server σ → Waiter → Prop}
  {now : Rat}

def Attended (server : Server σ) : Prop :=
  ∀ id, server.standing? id = some .handed → server.isOpen id = false →
    id ∈ server.handlers.map Handler.connection

namespace Attended

variable (attended : server.Attended)
include attended

omit [Outlet σ] in
theorem congr (standing : ∀ id, other.standing? id = server.standing? id)
    (opened : ∀ id, other.isOpen id = server.isOpen id)
    (handlers : other.handlers.map Handler.connection =
      server.handlers.map Handler.connection) : other.Attended := by
  intro id handed closed
  rw [standing] at handed
  rw [opened] at closed
  rw [handlers]
  exact attended id handed closed

omit [Outlet σ] in
theorem dismiss {closing : Nat} (handled : closing ∈ server.handlers.map Handler.connection)
    (record : Journal.Record) : (server.dismiss closing record).Attended := by
  intro id handed closed
  by_cases same : id = closing
  · exact same ▸ handled
  · rw [standing?_dismiss] at handed
    rw [isOpen_dismiss, if_neg same] at closed
    exact attended id handed closed

omit [Outlet σ] in
theorem leave (handler : Handler) : (server.leave handler).Attended := by
  intro id handed closed
  obtain ⟨waiters, records, finished, shape⟩ := server.leave_shape handler
  rw [shape] at handed closed ⊢
  replace handed : (server.release handler.connection).standing? id = some .handed := handed
  rw [standing?_release] at handed
  split at handed
  · cases stands : server.standing? id <;> simp [stands] at handed
  next different =>
    have still := (server.isOpen_release handler.connection id).symm.trans closed
    have before := attended id handed still
    obtain ⟨reader, reads, rfl⟩ := List.mem_map.mp before
    exact List.mem_map.mpr ⟨reader, List.mem_filter.mpr ⟨reads, by simpa using different⟩, rfl⟩

omit [Outlet σ] in
theorem handFirst (coherent : server.Coherent) (running : server.stopped = false) (now : Rat) :
    (server.handFirst now).Attended := by
  intro id handed closed
  rw [(server.sameStream_handFirst now id).isOpen] at closed
  simp only [Server.handFirst] at handed ⊢
  split at handed
  next first rest waiter others queue _ =>
    replace handed := (server.standing?_hand now waiter first id).symm.trans handed
    by_cases same : id = first
    · have queued : id ∈ server.queue := by simp [queue, same]
      have opened := (coherent.queuedOpen id queued).resolve_left (by simp [running])
      exact absurd (closed.symm.trans opened) Bool.false_ne_true
    · rw [if_neg same] at handed
      obtain ⟨reader, reads, rfl⟩ := List.mem_map.mp (attended id handed closed)
      exact List.mem_map.mpr ⟨reader, List.mem_append_left _ reads, rfl⟩
  next => exact attended id handed closed

theorem perform (coherent : server.Coherent) {move : Move} (fits : server.Fits starts move)
    (running : (server.perform move).stopped = false) : (server.perform move).Attended := by
  have before : server.stopped = false := by
    rw [← Bool.not_eq_true]
    exact fun stopped => nomatch running.symm.trans (stopped_stays stopped move)
  have halted {claim : Prop} (stopped : server.stopped = true) : claim := by simp [before] at stopped
  cases move with
  | await waiter =>
      obtain ⟨waiters, records, finished, shape⟩ := server.await_shape waiter
      simp only [Server.perform, shape]
      exact attended
  | arrive arrival =>
      intro id handed closed
      simp only [Server.perform] at handed closed ⊢
      rw [standing?_register coherent.numbered] at handed
      rw [isOpen_register coherent.numbered arrival fits.2] at closed
      rw [handlers_register]
      split at handed
      · rcases server.fate_cases with ⟨fate, _⟩ | ⟨fate, _⟩ | ⟨fate, _⟩ <;> simp [fate] at handed
      next different => exact attended id handed ((if_neg different).symm.trans closed)
  | receive id bytes =>
      exact attended.congr (server.standing?_receive id · bytes) (server.isOpen_receive id · bytes) rfl
  | finish id ending =>
      exact attended.congr (server.standing?_finish id · ending) (server.isOpen_finish id · ending) rfl
  | consume moment id bytes =>
      exact attended.congr (server.standing?_consume moment id · bytes)
        (server.isOpen_consume moment id · bytes)
        (server.connections_consume_handlers moment id bytes)
  | hand moment => exact attended.handFirst coherent before moment
  | conclude id ending => exact attended.dismiss fits.1 _
  | giveUp moment id =>
      obtain ⟨handler, reads, same, _⟩ := fits
      exact attended.dismiss (List.mem_map.mpr ⟨handler, reads, same⟩) _
  | leave handler => exact attended.leave handler
  | shut id => exact halted fits
  | drain => exact halted fits.1
  | live moment =>
      cases moment with
      | left handler =>
          have noted : (server.note (Connection.disconnectedRecord handler.connection)).Attended :=
            attended
          exact noted.leave handler
      | closeFailed id => exact halted fits
      | woken waiter => exact halted fits
  | listen => exact attended
  | beginStop => exact attended
  | report => exact attended

end Attended

omit [Outlet σ] in
theorem Fresh.attended (fresh : server.Fresh) : server.Attended := by
  rw [fresh]
  intro id handed
  simp [standing?, connection?] at handed

theorem Run.attended {start : Server σ} {moves : List Move} (run : Run starts start moves server)
    (fresh : start.Fresh) (running : server.stopped = false) : server.Attended := by
  induction run with
  | still => exact fresh.attended
  | @move _ server next run fits ih =>
      have before : server.stopped = false := by
        rw [← Bool.not_eq_true]
        exact fun stopped => nomatch running.symm.trans (stopped_stays stopped next)
      exact (ih before).perform (run.coherent fresh.coherent) fits running

omit [Outlet σ] in
theorem Settled.vacant (settled : server.Settled) (coherent : server.Coherent)
    (attended : server.Attended) (running : server.stopped = false)
    (closed : ∀ id, server.isOpen id = false) : server.active = none := by
  cases active : server.active with
  | none => rfl
  | some id =>
      have handlers := settled.handlers_eq_nil closed
      rcases coherent.activeAdmitted id active with queued | handed | discarded
      · have waits := (coherent.queued id).mpr queued
        have opened := (coherent.queuedOpen id waits).resolve_left (by simp [running])
        exact nomatch (closed id).symm.trans opened
      · have reads := attended id handed (closed id)
        simp [handlers] at reads
      · have stopped := coherent.discardedStopped id discarded
        simp [running] at stopped

theorem ending?_perform (server : Server σ) {move : Move} (own : move.isOwn now) (id : Nat) :
    (server.perform move).ending? id = server.ending? id := by
  cases move with
  | hand moment => exact (server.sameStream_handFirst moment id).ending
  | leave handler => exact (server.sameStream_leave handler id).ending
  | consume moment reader bytes => exact server.ending?_consume moment reader id bytes
  | conclude reader ending => exact server.ending?_dismiss reader id _
  | giveUp moment reader => exact server.ending?_dismiss reader id _
  | _ => exact own.elim

theorem Works.lasting (works : server.Works now other) (coherent : server.Coherent)
    (running : server.stopped = false) {id : Nat} (patient : server.Patient now id)
    (opened : server.isOpen id = true) : other.isOpen id = true ∨ other.ReadOut id := by
  have stopped := works.lifecycle.2.trans running
  refine (works.passes.lasting coherent patient opened).imp_right fun either =>
    either.resolve_right ?_
  simp [stopped]

theorem Works.goesOn (works : server.Works now other) (coherent : server.Coherent)
    (running : server.stopped = false) {id : Nat} (patient : server.Patient now id)
    (lasts : server.ending? id = none) (opened : server.isOpen id = true) :
    other.isOpen id = true := by
  refine (works.lasting coherent running patient opened).resolve_right fun readOut => readOut.2 ?_
  refine works.keeps (fun later => later.ending? id = none) ?_ lasts
  exact fun before move own _ same => (before.ending?_perform own id).trans same

theorem arrive_admits (coherent : server.Coherent) (admits : server.fate = .queued)
    {arrival : Connection} (untaken : arrival.taken = []) (fresh : arrival.closes = 0) (now : Rat) :
    server.nextId ∈ (server.arrive now arrival).accepted ++ (server.arrive now arrival).queue ∧
      (server.neverWaits = false → arrival.ending = none →
        (server.arrive now arrival).isOpen server.nextId = true) := by
  have running : server.stopped = false := by
    rcases server.fate_cases with ⟨fate, _⟩ | ⟨fate, _⟩ | ⟨_, running, _⟩
    · simp [admits] at fate
    · simp [admits] at fate
    · exact running
  have numbered := coherent.numbered
  have works : (server.register arrival).Works now (server.arrive now arrival) := by
    simp only [arrive, if_pos admits]
    exact works_settle _ now
  constructor
  · rw [works.line, queue_register, if_pos admits]
    simp
  · intro waits lasts
    refine works.goesOn (coherent.register untaken fresh)
      ((server.stopped_register arrival).trans running) ⟨?_, fun handler reads same => ?_⟩ ?_ ?_
    · exact (neverWaits_congr (server.timeout_register arrival)).trans waits
    · rw [handlers_register] at reads
      have handed := coherent.handling handler.connection (List.mem_map_of_mem reads)
      rw [same, numbered.standing?_nextId] at handed
      cases handed
    · rw [ending?_register numbered, if_pos rfl, lasts]
    · rw [isOpen_register numbered arrival fresh, if_pos rfl, admits]
      rfl

theorem arrive_turnsAway (numbered : server.Numbered) (stopped : server.stopped = true)
    {arrival : Connection} (fresh : arrival.closes = 0) (now : Rat) :
    (server.arrive now arrival).standing? server.nextId = some .turnedAway ∧
      (server.arrive now arrival).isOpen server.nextId = false := by
  have fate := server.fate_of_stopped stopped
  have arrives : server.arrive now arrival = server.register arrival := by
    simp [arrive, fate]
  rw [arrives, standing?_register numbered, isOpen_register numbered arrival fresh, fate]
  simp

end SteeringChannel.Server
