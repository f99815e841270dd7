import SteeringChannel.Proofs.Server.Move

/-!
What holds of a server at every moment, whatever tasks wait and whatever policy it has: the queue,
the tasks and the slot agree with what has become of each connection.
-/

namespace SteeringChannel

theorem Connection.close_closes_le {connection : Connection} (once : connection.closes ≤ 1) :
    connection.close.closes ≤ 1 :=
  Nat.le_of_eq (connection.close_closes once)

theorem Waiter.connection_handler? (waiter : Waiter) (now : Rat) (id : Nat) :
    ∀ other ∈ (waiter.handler? now id).toList.map Handler.connection, other = id := by
  simp only [handler?]
  split <;> simp

namespace Server

variable {σ : Type} {server : Server σ}

structure Coherent (server : Server σ) : Prop where
  numbered : server.Numbered
  closedOnce : ∀ connection ∈ server.connections, connection.closes ≤ 1
  queued : ∀ id, id ∈ server.queue ↔ server.standing? id = some .queued
  accepted : ∀ id, id ∈ server.accepted ↔
    server.standing? id = some .handed ∨ server.standing? id = some .handled
  ordered : (server.accepted ++ server.queue).Pairwise (· < ·)
  handling : ∀ id ∈ server.handlers.map Handler.connection, server.standing? id = some .handed
  distinct : (server.handlers.map Handler.connection).Nodup
  queuedOpen : ∀ id ∈ server.queue, server.stopped = true ∨ server.isOpen id = true
  openAdmitted : ∀ id, server.isOpen id = true →
    server.standing? id = some .queued ∨ server.standing? id = some .handed
  untaken : ∀ id, id ∉ server.accepted → server.taken id = []
  activeAdmitted : ∀ id, server.active = some id →
    server.standing? id = some .queued ∨ server.standing? id = some .handed ∨
      server.standing? id = some .discarded
  discardedStopped : ∀ id, server.standing? id = some .discarded → server.stopped = true

theorem Fresh.coherent (fresh : server.Fresh) : server.Coherent := by
  rw [fresh]
  constructor <;> simp [Numbered, standing?, connection?, isOpen, taken]

theorem Numbered.lt_nextId (numbered : server.Numbered) {id : Nat} {standing : Standing}
    (stands : server.standing? id = some standing) : id < server.nextId := by
  unfold standing? at stands
  obtain ⟨connection, found, _⟩ := Option.map_eq_some_iff.mp stands
  exact (numbered.bounds found).2

theorem Numbered.standing?_nextId (numbered : server.Numbered) :
    server.standing? server.nextId = none := by
  simp [standing?, numbered.connection?_nextId]

theorem closedOnce_update {change : Connection → Connection}
    (keeps : ∀ connection, connection.closes ≤ 1 → (change connection).closes ≤ 1) (id : Nat)
    (once : ∀ connection ∈ server.connections, connection.closes ≤ 1) :
    ∀ connection ∈ (server.update id change).connections, connection.closes ≤ 1 := by
  intro connection member
  obtain ⟨before, present, rfl⟩ := List.mem_map.mp member
  split
  · exact keeps before (once before present)
  · exact once before present

namespace Coherent

variable (coherent : server.Coherent)
include coherent

theorem elsewhere (waiters : List Waiter) (records : List Journal.Record)
    (finished : List (Nat × Outcome)) (listening : Bool) :
    Coherent { server with
      waiters := waiters, records := records, finished := finished, listening := listening } :=
  ⟨coherent.numbered, coherent.closedOnce, coherent.queued, coherent.accepted, coherent.ordered,
    coherent.handling, coherent.distinct, coherent.queuedOpen, coherent.openAdmitted,
    coherent.untaken, coherent.activeAdmitted, coherent.discardedStopped⟩

theorem lt_nextId {id : Nat} (present : id ∈ server.accepted ++ server.queue) :
    id < server.nextId := by
  rcases List.mem_append.mp present with accepted | queued
  · rcases (coherent.accepted id).mp accepted with stands | stands
    · exact coherent.numbered.lt_nextId stands
    · exact coherent.numbered.lt_nextId stands
  · exact coherent.numbered.lt_nextId ((coherent.queued id).mp queued)

theorem lt_nextId_of_isOpen {id : Nat} (opened : server.isOpen id = true) : id < server.nextId :=
  (coherent.openAdmitted id opened).elim coherent.numbered.lt_nextId coherent.numbered.lt_nextId

theorem await (waiter : Waiter) : (server.await waiter).Coherent := by
  obtain ⟨waiters, records, finished, shape⟩ := server.await_shape waiter
  rw [shape]
  exact coherent.elsewhere waiters records finished server.listening

theorem beginStop : server.beginStop.Coherent :=
  { numbered := coherent.numbered
    closedOnce := coherent.closedOnce
    queued := coherent.queued
    accepted := coherent.accepted
    ordered := coherent.ordered
    handling := coherent.handling
    distinct := coherent.distinct
    queuedOpen := fun _ _ => Or.inl rfl
    openAdmitted := coherent.openAdmitted
    untaken := coherent.untaken
    activeAdmitted := coherent.activeAdmitted
    discardedStopped := fun _ _ => rfl }

theorem sameStandings {other : Server σ} (numbered : other.Numbered)
    (once : ∀ connection ∈ other.connections, connection.closes ≤ 1)
    (standing : ∀ id, other.standing? id = server.standing? id)
    (opened : ∀ id, other.isOpen id = true → server.isOpen id = true)
    (queuedOpen : ∀ id ∈ server.queue, server.stopped = true ∨ other.isOpen id = true)
    (untaken : ∀ id, id ∉ server.accepted → other.taken id = [])
    (queue : other.queue = server.queue) (accepted : other.accepted = server.accepted)
    (handlers : other.handlers.map Handler.connection = server.handlers.map Handler.connection)
    (active : other.active = server.active) (stopped : other.stopped = server.stopped) :
    other.Coherent := by
  constructor
  case numbered => exact numbered
  case closedOnce => exact once
  case queued => simpa only [queue, standing] using coherent.queued
  case accepted => simpa only [accepted, standing] using coherent.accepted
  case ordered => simpa only [accepted, queue] using coherent.ordered
  case handling => simpa only [handlers, standing] using coherent.handling
  case distinct => simpa only [handlers] using coherent.distinct
  case queuedOpen => simpa only [queue, stopped] using queuedOpen
  case openAdmitted =>
    intro id isOpen
    rw [standing]
    exact coherent.openAdmitted id (opened id isOpen)
  case untaken => simpa only [accepted] using untaken
  case activeAdmitted => simpa only [active, standing] using coherent.activeAdmitted
  case discardedStopped => simpa only [stopped, standing] using coherent.discardedStopped

theorem receive (id : Nat) (bytes : List UInt8) : (server.receive id bytes).Coherent := by
  refine coherent.sameStandings
    (server.numbered_update (fun _ => Connection.receive_id _ _) id coherent.numbered)
    (closedOnce_update (fun _ once => by simpa using once) id coherent.closedOnce)
    (server.standing?_receive id · bytes) ?_ ?_ ?_ rfl rfl rfl rfl rfl
  · intro other isOpen
    simpa using isOpen
  · simpa using coherent.queuedOpen
  · simpa using coherent.untaken

theorem finish (id : Nat) (ending : Ending) : (server.finish id ending).Coherent := by
  refine coherent.sameStandings
    (server.numbered_update (fun _ => Connection.finish_id _ _) id coherent.numbered)
    (closedOnce_update (fun _ once => by simpa using once) id coherent.closedOnce)
    (server.standing?_finish id · ending) ?_ ?_ ?_ rfl rfl rfl rfl rfl
  · intro other isOpen
    simpa using isOpen
  · simpa using coherent.queuedOpen
  · simpa using coherent.untaken

theorem shut {id : Nat} (allowed : server.stopped = true ∨ id ∉ server.queue) :
    (server.shut id).Coherent := by
  refine coherent.sameStandings
    (server.numbered_update Connection.close_id id coherent.numbered)
    (closedOnce_update (fun _ once => Connection.close_closes_le once) id coherent.closedOnce)
    (server.standing?_shut id) ?_ ?_ ?_ rfl rfl rfl rfl rfl
  · intro other isOpen
    rw [isOpen_shut] at isOpen
    split at isOpen
    · simp at isOpen
    · exact isOpen
  · intro other queued
    rw [isOpen_shut]
    rcases allowed with stopped | unqueued
    · exact Or.inl stopped
    · have different : other ≠ id := fun same => unqueued (same ▸ queued)
      rw [if_neg different]
      exact coherent.queuedOpen other queued
  · simpa using coherent.untaken

theorem handled_unqueued {id : Nat} (handled : id ∈ server.handlers.map Handler.connection) :
    id ∉ server.queue := by
  intro queued
  have stands := coherent.handling id handled
  rw [(coherent.queued id).mp queued] at stands
  simp at stands

theorem handled_accepted {id : Nat} (handled : id ∈ server.handlers.map Handler.connection) :
    id ∈ server.accepted :=
  (coherent.accepted id).mpr (Or.inl (coherent.handling id handled))

theorem dismiss {id : Nat} (handled : id ∈ server.handlers.map Handler.connection)
    (record : Journal.Record) : (server.dismiss id record).Coherent :=
  ((coherent.elsewhere _ _ _ _).shut (Or.inr (coherent.handled_unqueued handled))).elsewhere _ _ _ _

theorem consume [Outlet σ] {id : Nat} (handled : id ∈ server.handlers.map Handler.connection)
    {bytes : List UInt8} (arrived : bytes <+: server.unread id) (now : Rat) :
    (server.consume now id bytes).Coherent := by
  have shape := server.consume_eq now id bytes
  refine coherent.sameStandings ?_ ?_ (server.standing?_consume now id · bytes) ?_ ?_ ?_ ?_ ?_
    (server.connections_consume_handlers now id bytes) ?_ ?_
  · rw [shape]
    exact server.numbered_update (fun _ => Connection.take_id _ _) id coherent.numbered
  · rw [shape]
    exact closedOnce_update (fun _ once => by simpa using once) id coherent.closedOnce
  · intro other isOpen
    simpa using isOpen
  · simpa using coherent.queuedOpen
  · intro other unaccepted
    have different : other ≠ id := fun same =>
      unaccepted (same ▸ coherent.handled_accepted handled)
    rw [server.taken_consume now id other bytes arrived, if_neg different]
    exact coherent.untaken other unaccepted
  all_goals rw [shape]; rfl

theorem release {id : Nat} (handled : id ∈ server.handlers.map Handler.connection)
    (closed : server.isOpen id = false) : (server.release id).Coherent := by
  have stands := coherent.handling id handled
  have remaining : ∀ other ∈ (server.release id).handlers.map Handler.connection,
      other ≠ id ∧ other ∈ server.handlers.map Handler.connection := by
    intro other member
    obtain ⟨handler, kept, rfl⟩ := List.mem_map.mp member
    have split := List.mem_filter.mp kept
    exact ⟨by simpa using split.2, List.mem_map.mpr ⟨handler, split.1, rfl⟩⟩
  constructor
  case numbered =>
    exact server.numbered_update (fun _ => Connection.mark_id _ .handled) id coherent.numbered
  case closedOnce =>
    exact closedOnce_update (fun _ once => by simpa using once) id coherent.closedOnce
  case ordered => exact coherent.ordered
  case queued =>
    intro other
    rw [standing?_release]
    by_cases same : other = id
    · subst same
      exact iff_of_false (coherent.handled_unqueued handled) (by simp [stands])
    · rw [if_neg same]
      exact coherent.queued other
  case accepted =>
    intro other
    rw [standing?_release]
    by_cases same : other = id
    · subst same
      exact iff_of_true (coherent.handled_accepted handled) (by simp [stands])
    · rw [if_neg same]
      exact coherent.accepted other
  case handling =>
    intro other member
    obtain ⟨different, present⟩ := remaining other member
    rw [standing?_release, if_neg different]
    exact coherent.handling other present
  case distinct =>
    exact coherent.distinct.sublist (List.filter_sublist.map _)
  case queuedOpen =>
    intro other queued
    rw [isOpen_release]
    exact coherent.queuedOpen other queued
  case openAdmitted =>
    intro other isOpen
    rw [isOpen_release] at isOpen
    have different : other ≠ id := by
      intro same
      rw [same, closed] at isOpen
      simp at isOpen
    rw [standing?_release, if_neg different]
    exact coherent.openAdmitted other isOpen
  case untaken =>
    intro other unaccepted
    rw [taken_release]
    exact coherent.untaken other unaccepted
  case activeAdmitted =>
    intro other active
    have kept : server.active ≠ some id ∧ server.active = some other := by
      change (if server.active = some id then none else server.active) = some other at active
      split at active
      · simp at active
      · exact ⟨by assumption, active⟩
    have different : other ≠ id := fun same => kept.1 (same ▸ kept.2)
    rw [standing?_release, if_neg different]
    exact coherent.activeAdmitted other kept.2
  case discardedStopped =>
    intro other discarded
    rw [standing?_release] at discarded
    split at discarded
    next same => simp [same, stands] at discarded
    next => exact coherent.discardedStopped other discarded

theorem leave {handler : Handler} (present : handler ∈ server.handlers)
    (closed : server.isOpen handler.connection = false) : (server.leave handler).Coherent := by
  obtain ⟨waiters, records, finished, shape⟩ := server.leave_shape handler
  rw [shape]
  exact (coherent.release (List.mem_map.mpr ⟨handler, present, rfl⟩) closed).elsewhere _ _ _ _

theorem hand {id : Nat} {rest : List Nat} (queue : server.queue = id :: rest) (now : Rat)
    (waiter : Waiter) (others : List Waiter) :
    Coherent { server.hand now waiter id with queue := rest, waiters := others } := by
  have queued : id ∈ server.queue := by simp [queue]
  have stands := (coherent.queued id).mp queued
  have ordered := coherent.ordered
  rw [queue] at ordered
  -- The queue is in ascending order, so its head does not come again.
  have later : id ∉ rest := by
    intro member
    have tail := (List.pairwise_append.mp ordered).2.1
    exact absurd ((List.pairwise_cons.mp tail).1 id member) (Nat.lt_irrefl id)
  have unhandled : id ∉ server.handlers.map Handler.connection := fun handled =>
    coherent.handled_unqueued handled queued
  have standing (other : Nat) : (server.hand now waiter id).standing? other =
      if other = id then some .handed else server.standing? other := by
    rw [standing?_hand]
    split
    next same => simp [same, stands]
    next => rfl
  have handlers : (server.hand now waiter id).handlers.map Handler.connection =
      server.handlers.map Handler.connection ++
        (waiter.handler? now id).toList.map Handler.connection := List.map_append
  have added := waiter.connection_handler? now id
  constructor
  case numbered =>
    exact server.numbered_update (fun _ => Connection.mark_id _ .handed) id coherent.numbered
  case closedOnce =>
    exact closedOnce_update (fun _ once => by simpa using once) id coherent.closedOnce
  case queued =>
    intro other
    change other ∈ rest ↔ (server.hand now waiter id).standing? other = _
    rw [standing]
    by_cases same : other = id
    · subst same
      exact iff_of_false later (by simp)
    · have before := coherent.queued other
      rw [queue, List.mem_cons] at before
      simpa [same] using before
  case accepted =>
    intro other
    change other ∈ server.accepted ++ [id] ↔ (server.hand now waiter id).standing? other = _ ∨
      (server.hand now waiter id).standing? other = _
    rw [standing, List.mem_append, List.mem_singleton]
    by_cases same : other = id
    · simp [same]
    · have before := coherent.accepted other
      simpa [same] using before
  case ordered =>
    change ((server.accepted ++ [id]) ++ rest).Pairwise (· < ·)
    simpa using ordered
  case handling =>
    intro other member
    change (server.hand now waiter id).standing? other = _
    rw [standing]
    rcases List.mem_append.mp (handlers ▸ member) with before | new
    · have different : other ≠ id := fun same => unhandled (same ▸ before)
      rw [if_neg different]
      exact coherent.handling other before
    · rw [if_pos (added other new)]
  case distinct =>
    change ((server.hand now waiter id).handlers.map Handler.connection).Nodup
    rw [handlers]
    refine List.nodup_append.mpr ⟨coherent.distinct, ?_, ?_⟩
    · cases waiter.handler? now id <;> simp
    · intro other before another new same
      exact unhandled (added another new ▸ same ▸ before)
  case queuedOpen =>
    intro other member
    have before := coherent.queuedOpen other (by rw [queue]; exact List.mem_cons_of_mem id member)
    rw [← isOpen_hand server now waiter id] at before
    exact before
  case openAdmitted =>
    intro other isOpen
    have before := coherent.openAdmitted other ((isOpen_hand server now waiter id other).symm.trans isOpen)
    change (server.hand now waiter id).standing? other = _ ∨
      (server.hand now waiter id).standing? other = _
    rw [standing]
    split
    · exact Or.inr rfl
    · exact before
  case untaken =>
    intro other unaccepted
    refine (taken_hand server now waiter id other).trans (coherent.untaken other fun before => ?_)
    exact unaccepted (List.mem_append_left [id] before)
  case activeAdmitted =>
    intro other active
    exact Or.inr (Or.inl ((standing other).trans (if_pos (Option.some.inj active).symm)))
  case discardedStopped =>
    intro other discarded
    replace discarded := (standing other).symm.trans discarded
    split at discarded
    · simp at discarded
    · exact coherent.discardedStopped other discarded

theorem handFirst (now : Rat) : (server.handFirst now).Coherent := by
  simp only [Server.handFirst]
  split
  next queue _ => exact coherent.hand queue now _ _
  next => exact coherent

theorem drain (stopped : server.stopped = true)
    (closed : ∀ id ∈ server.queue, server.isOpen id = false) : server.drain.Coherent := by
  have handed : ∀ id, server.standing? id = some .handed → server.drain.standing? id = some .handed := by
    intro id stands
    simp [standing?_drain, stands]
  constructor
  case numbered => exact server.numbered_drain coherent.numbered
  case closedOnce =>
    intro connection member
    obtain ⟨before, present, rfl⟩ := List.mem_map.mp member
    rw [Connection.discard_closes]
    exact coherent.closedOnce before present
  case queued =>
    intro id
    refine iff_of_false (List.not_mem_nil) ?_
    rw [standing?_drain]
    cases server.standing? id with
    | none => simp
    | some standing => by_cases queued : standing = .queued <;> simp [queued]
  case accepted =>
    intro id
    refine (coherent.accepted id).trans ?_
    rw [standing?_drain]
    cases server.standing? id with
    | none => simp
    | some standing => cases standing <;> simp
  case ordered =>
    exact (coherent.ordered).sublist (List.Sublist.append_left (List.nil_sublist _) _)
  case handling =>
    intro id handled
    exact handed id (coherent.handling id handled)
  case distinct => exact coherent.distinct
  case queuedOpen => exact fun id member => absurd member List.not_mem_nil
  case openAdmitted =>
    intro id isOpen
    rw [isOpen_drain] at isOpen
    rcases coherent.openAdmitted id isOpen with queued | stands
    · rw [closed id ((coherent.queued id).mpr queued)] at isOpen
      simp at isOpen
    · exact Or.inr (handed id stands)
  case untaken =>
    intro id unaccepted
    rw [taken_drain]
    exact coherent.untaken id unaccepted
  case activeAdmitted =>
    intro id active
    rw [standing?_drain]
    rcases coherent.activeAdmitted id active with stands | stands | stands <;> simp [stands]
  case discardedStopped => exact fun _ _ => stopped

theorem register {arrival : Connection} (untaken : arrival.taken = [])
    (fresh : arrival.closes = 0) : (server.register arrival).Coherent := by
  have numbered := coherent.numbered
  have absent : server.nextId ∉ server.accepted ++ server.queue := fun member =>
    Nat.lt_irrefl _ (coherent.lt_nextId member)
  rw [List.mem_append, not_or] at absent
  constructor
  case numbered => exact numbered_register numbered arrival
  case closedOnce =>
    intro connection member
    have found := (numbered_register numbered arrival).connection?_of_mem member
    rw [connection?_register numbered] at found
    split at found
    next =>
      rw [← Option.some.inj found]
      split
      · exact Nat.le_of_lt_succ (by simp [fresh])
      · exact Connection.close_closes_le (by simp [fresh])
    next => exact coherent.closedOnce connection (server.mem_of_connection? found)
  case queued =>
    intro id
    rw [queue_register, standing?_register numbered]
    by_cases same : id = server.nextId
    · subst same
      by_cases admitted : server.fate = .queued <;> simp [admitted, absent.2]
    · rw [if_neg same]
      refine Iff.trans ?_ (coherent.queued id)
      split <;> simp [same]
  case accepted =>
    intro id
    rw [accepted_register, standing?_register numbered]
    by_cases same : id = server.nextId
    · subst same
      refine iff_of_false absent.1 ?_
      rcases server.fate_cases with ⟨fate, _⟩ | ⟨fate, _⟩ | ⟨fate, _⟩ <;> simp [fate]
    · rw [if_neg same]
      exact coherent.accepted id
  case ordered =>
    rw [accepted_register, queue_register]
    split
    · rw [← List.append_assoc]
      refine List.pairwise_append.mpr ⟨coherent.ordered, List.pairwise_singleton _ _, ?_⟩
      intro id member other new
      rw [List.mem_singleton.mp new]
      exact coherent.lt_nextId member
    · exact coherent.ordered
  case handling =>
    intro id handled
    rw [handlers_register] at handled
    have stands := coherent.handling id handled
    have different : id ≠ server.nextId := by
      intro same
      rw [same, numbered.standing?_nextId] at stands
      simp at stands
    rw [standing?_register numbered, if_neg different]
    exact stands
  case distinct =>
    rw [handlers_register]
    exact coherent.distinct
  case queuedOpen =>
    intro id member
    rw [stopped_register, isOpen_register numbered arrival fresh]
    by_cases same : id = server.nextId
    · rw [queue_register] at member
      split at member
      next admitted => simp [same, admitted]
      next => exact absurd (same ▸ member) absent.2
    · rw [if_neg same]
      rw [queue_register] at member
      split at member
      · exact coherent.queuedOpen id (by simpa [same] using member)
      · exact coherent.queuedOpen id member
  case openAdmitted =>
    intro id isOpen
    rw [isOpen_register numbered arrival fresh] at isOpen
    rw [standing?_register numbered]
    split at isOpen
    next same => exact Or.inl (by simpa [same] using isOpen)
    next different =>
      rw [if_neg different]
      exact coherent.openAdmitted id isOpen
  case untaken =>
    intro id unaccepted
    rw [accepted_register] at unaccepted
    rw [taken_register numbered]
    split
    · exact untaken
    · exact coherent.untaken id unaccepted
  case activeAdmitted =>
    intro id active
    rw [active_register] at active
    rw [standing?_register numbered]
    split at active
    next admitted =>
      rw [if_pos (Option.some.inj active).symm]
      exact Or.inl (congrArg some admitted.1)
    next =>
      have before := coherent.activeAdmitted id active
      have different : id ≠ server.nextId := by
        intro same
        rw [same, numbered.standing?_nextId] at before
        simp at before
      rw [if_neg different]
      exact before
  case discardedStopped =>
    intro id discarded
    rw [standing?_register numbered] at discarded
    rw [stopped_register]
    split at discarded
    next =>
      rcases server.fate_cases with ⟨fate, _⟩ | ⟨fate, _⟩ | ⟨fate, _⟩ <;> simp [fate] at discarded
    next => exact coherent.discardedStopped id discarded

theorem live [Outlet σ] {starts : Server σ → Waiter → Prop} {moment : Moment}
    (fits : server.Fits starts (.live moment)) : (server.live moment).Coherent := by
  cases moment with
  | closeFailed id => exact coherent.elsewhere _ _ _ _
  | left handler => exact Coherent.leave (coherent.elsewhere _ _ _ _) fits.1 fits.2
  | woken waiter => exact coherent.elsewhere _ _ _ _

theorem perform [Outlet σ] {starts : Server σ → Waiter → Prop} {move : Move}
    (fits : server.Fits starts move) : (server.perform move).Coherent := by
  cases move with
  | listen => exact coherent.elsewhere _ _ _ _
  | await waiter => exact coherent.await waiter
  | arrive arrival => exact coherent.register fits.1 fits.2
  | receive id bytes => exact coherent.receive id bytes
  | finish id ending => exact coherent.finish id ending
  | hand now => exact coherent.handFirst now
  | consume now id bytes => exact coherent.consume fits.1 fits.2 now
  | conclude id ending => exact coherent.dismiss fits.1 _
  | giveUp now id =>
      obtain ⟨handler, present, rfl, _⟩ := fits
      exact coherent.dismiss (List.mem_map.mpr ⟨handler, present, rfl⟩) _
  | leave handler => exact coherent.leave fits.1 fits.2
  | beginStop => exact coherent.beginStop
  | shut id => exact coherent.shut (Or.inl fits)
  | drain => exact coherent.drain fits.1 fits.2
  | live moment => exact coherent.live fits
  | report => exact coherent.elsewhere _ _ _ _

end Coherent

theorem Run.coherent [Outlet σ] {starts : Server σ → Waiter → Prop} {start server : Server σ}
    {moves : List Move} (run : Run starts start moves server) (initial : start.Coherent) :
    server.Coherent :=
  run.keeps (fun _ _ fits coherent => coherent.perform fits) initial

end Server
end SteeringChannel
