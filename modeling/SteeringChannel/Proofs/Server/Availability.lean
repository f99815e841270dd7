import SteeringChannel.Proofs.Server.Serial
import SteeringChannel.Proofs.Server.Settled

/-!
A listening server whose loop serves never gets stuck. Whenever no connection is left open, the
slot is free, everything has been counted and closed, and the loop waits for the next client.
-/

namespace SteeringChannel

theorem Connection.mem_releases {connection : Connection} {entry : Nat × Outcome}
    (released : entry ∈ connection.releases) : entry.2 = .released := by
  obtain ⟨task, _, rfl⟩ := List.mem_map.mp released
  rfl

namespace Server

variable {σ : Type} {server : Server σ} {task : Nat} {tasks : List Nat}

/-- A loop starts to serve once the server listens, and only while no other task waits or reads. -/
def singly (task : Nat) (server : Server σ) (waiter : Waiter) : Prop :=
  waiter = ⟨task, .serve⟩ ∧ server.isListening = true ∧ server.waiters = [] ∧
    server.handlers = []

/-- Just these tasks are there, waiting or reading, and nothing that a task does has come to an
end. -/
structure Present (tasks : List Nat) (server : Server σ) : Prop where
  listening : tasks ≠ [] → server.listening = true
  loop : server.waiters.map Waiter.task ++ server.handlers.map Handler.task = tasks
  unfinished : ∀ entry ∈ server.finished, entry.2 = .released

theorem stopped_perform [Outlet σ] (server : Server σ) (move : Move) :
    move = .beginStop ∨ (server.perform move).stopped = server.stopped := by
  cases move with
  | beginStop => exact Or.inl rfl
  | await waiter =>
      obtain ⟨waiters, records, finished, shape⟩ := server.await_shape waiter
      exact Or.inr (by simp only [perform, shape])
  | arrive arrival => exact Or.inr (server.stopped_register arrival)
  | hand now =>
      simp only [perform, handFirst]
      split <;> exact Or.inr rfl
  | consume now id bytes => exact Or.inr (by simp only [perform, consume_eq]; rfl)
  | leave handler => exact Or.inr (stopped_leave server handler)
  | live moment =>
      cases moment with
      | left handler =>
          exact Or.inr (stopped_leave
            (server.note (Connection.disconnectedRecord handler.connection)) handler)
      | closeFailed id => exact Or.inr rfl
      | woken waiter => exact Or.inr rfl
  | _ => exact Or.inr rfl

namespace Present

variable (present : server.Present tasks)
include present

theorem shut (id : Nat) : (server.shut id).Present tasks := by
  refine ⟨present.listening, present.loop, fun entry member => ?_⟩
  rcases List.mem_append.mp member with before | new
  · exact present.unfinished entry before
  · obtain ⟨connection, _, released⟩ := List.mem_flatMap.mp new
    exact Connection.mem_releases released

theorem dismiss (id : Nat) (record : Journal.Record) : (server.dismiss id record).Present tasks :=
  let shut := present.shut id
  ⟨shut.listening, shut.loop, shut.unfinished⟩

theorem register (arrival : Connection) : (server.register arrival).Present tasks := by
  refine ⟨?_, ?_, ?_⟩
  · rw [listening_register]
    exact present.listening
  · rw [waiters_register, handlers_register]
    exact present.loop
  · simp only [Server.register]
    split
    · exact present.unfinished
    · intro entry member
      exact (List.mem_append.mp member).elim (present.unfinished entry) Connection.mem_releases

theorem handFirst (looped : server.Looped) (now : Rat) : (server.handFirst now).Present tasks := by
  simp only [Server.handFirst]
  split
  next id rest waiter others _ waiters =>
    have serves : waiter.duty = .serve := looped.serving waiter (by simp [waiters])
    have single := looped.single
    have loop := present.loop
    rw [waiters, List.length_cons] at single
    have alone : others = [] := List.length_eq_zero_iff.mp (by omega)
    have idle : server.handlers = [] := List.length_eq_zero_iff.mp (by omega)
    refine ⟨present.listening, ?_, ?_⟩
    · simpa [Server.hand, Waiter.handler?, serves, idle, waiters, alone] using loop
    · simpa [Server.hand, serves] using present.unfinished
  next => exact present

theorem leave (looped : server.Looped) (running : server.stopped = false) {handler : Handler}
    (reads : handler ∈ server.handlers) : (server.leave handler).Present tasks := by
  obtain ⟨idle, handlers⟩ := looped.handlers_eq reads
  have repeats := looped.repeating handler reads
  have loop := present.loop
  rw [idle, handlers, List.map_nil, List.map_singleton, List.nil_append] at loop
  have listens : server.listening = true := present.listening (by simp [← loop])
  have listening : (server.release handler.connection).isListening = true := by
    simp [isListening, Server.release, update, listens, running]
  simp only [Server.leave, Server.await]
  simp only [repeats, listening, if_true]
  refine ⟨present.listening, ?_, present.unfinished⟩
  simpa [Server.release, update, idle, handlers] using loop

theorem consume [Outlet σ] (now : Rat) (id : Nat) (bytes : List UInt8) :
    (server.consume now id bytes).Present tasks := by
  rw [consume_eq]
  refine ⟨present.listening, ?_, present.unfinished⟩
  have tasks : (server.touch now id).handlers.map Handler.task =
      server.handlers.map Handler.task := by
    simp only [touch, List.map_map]
    apply List.map_congr_left
    intro handler _
    simp only [Function.comp]
    split <;> rfl
  have loop := present.loop
  dsimp only [update]
  split
  · exact loop
  · rw [tasks]
    exact loop

omit present in
theorem await {waiter : Waiter} (starts : server.singly task waiter)
    (present : server.Present tasks) : (server.await waiter).Present [task] := by
  obtain ⟨rfl, listening, idle, unread⟩ := starts
  simp only [Server.await]
  rw [if_pos listening]
  constructor
  · intro _
    exact (Bool.and_eq_true_iff.mp listening).1
  · simp [idle, unread]
  · exact present.unfinished

theorem perform [Outlet σ] {starts : Server σ → Waiter → Prop} (looped : server.Looped)
    (running : server.stopped = false) {move : Move} (fits : server.Fits starts move)
    (starter : ∀ waiter, move ≠ .await waiter) : move = .beginStop ∨
      (server.perform move).Present tasks := by
  cases move with
  | beginStop => exact Or.inl rfl
  | await waiter => exact absurd rfl (starter waiter)
  | listen => exact Or.inr ⟨fun _ => rfl, present.loop, present.unfinished⟩
  | arrive arrival => exact Or.inr (present.register arrival)
  | receive id bytes => exact Or.inr ⟨present.listening, present.loop, present.unfinished⟩
  | finish id ending => exact Or.inr ⟨present.listening, present.loop, present.unfinished⟩
  | hand now => exact Or.inr (present.handFirst looped now)
  | consume now id bytes => exact Or.inr (present.consume now id bytes)
  | conclude id ending => exact Or.inr (present.dismiss id _)
  | giveUp now id => exact Or.inr (present.dismiss id _)
  | leave handler => exact Or.inr (present.leave looped running fits.1)
  | shut id => exact Or.inr (present.shut id)
  | drain => exact absurd fits.1 (by simp [running])
  | live moment =>
      cases moment with
      | left handler =>
          have noted : (server.note (Connection.disconnectedRecord handler.connection)).Present
              tasks := ⟨present.listening, present.loop, present.unfinished⟩
          have looped : (server.note (Connection.disconnectedRecord handler.connection)).Looped :=
            looped.still rfl rfl looped.repeating (fun _ handed => handed) rfl rfl
          exact Or.inr (noted.leave looped running fits.1)
      | closeFailed id => simp [Fits, running] at fits
      | woken waiter => simp [Fits, running] at fits
  | report => exact Or.inr ⟨present.listening, present.loop, by simp [Server.perform, reported]⟩

end Present

theorem Run.served [Outlet σ] {start : Server σ} {moves : List Move}
    (run : Run (singly task) start moves server) (fresh : start.Fresh) :
    server.Coherent ∧ server.Looped ∧ ∃ tasks, (server.stopped = false → server.Present tasks) ∧
      (Move.await ⟨task, .serve⟩ ∈ moves → tasks = [task]) := by
  induction run with
  | still =>
      refine ⟨fresh.coherent, fresh.looped, [], fun _ => ?_, by simp⟩
      rw [fresh]
      exact ⟨fun nothing => absurd rfl nothing, rfl, by simp⟩
  | @move moves server next run fits ih =>
      obtain ⟨coherent, looped, tasks, present, started⟩ := ih
      have alone : server.Fits alone next := fits.restart fun waiter _ starts => by
        obtain ⟨rfl, _, idle, unread⟩ := starts
        exact ⟨rfl, idle, unread⟩
      refine ⟨coherent.perform fits, looped.perform coherent alone, ?_⟩
      by_cases starter : ∃ waiter, next = .await waiter
      · obtain ⟨waiter, rfl⟩ := starter
        have running : server.stopped = false := by
          simpa using (Bool.and_eq_true_iff.mp fits.2.1).2
        exact ⟨[task], fun _ => (present running).await fits, fun _ => rfl⟩
      · -- Anything else leaves the tasks as they are, unless it is the beginning of a stop.
        have other (waiter : Waiter) (same : next = .await waiter) : False :=
          starter ⟨waiter, same⟩
        refine ⟨tasks, fun running => ?_, fun member => started ?_⟩
        · rcases server.stopped_perform next with rfl | same
          · simp [Server.perform, beginStop] at running
          · rw [same] at running
            refine ((present running).perform looped running fits other).resolve_left ?_
            rintro rfl
            simp [Server.perform, beginStop, running] at same
        · exact (List.mem_append.mp member).resolve_right fun last =>
            other _ (List.mem_singleton.mp last).symm

theorem Run.unfinished [Outlet σ] {start : Server σ} {moves : List Move}
    (run : Run (singly task) start moves server) (fresh : start.Fresh)
    (running : server.stopped = false) {before : List Move} (earlier : before <+: moves) :
    ∀ entry ∈ (before.foldl perform start).finished, entry.2 = .released := by
  induction run with
  | still =>
      rw [List.prefix_nil.mp earlier, List.foldl_nil, fresh]
      simp
  | @move moves server next run fits ih =>
      rcases List.prefix_concat_iff.mp earlier with rfl | earlier
      · have last := Run.move next run fits
        obtain ⟨_, _, tasks, present, _⟩ := last.served fresh
        rw [last.foldl_eq]
        exact (present running).unfinished
      · refine ih ?_ earlier
        rcases server.stopped_perform next with rfl | same
        · simp [Server.perform, beginStop] at running
        · exact same.symm.trans running

theorem handFirst_eq {id : Nat} {rest : List Nat} {waiter : Waiter} {others : List Waiter}
    (queue : server.queue = id :: rest) (waiters : server.waiters = waiter :: others) (now : Rat) :
    server.handFirst now = { server.hand now waiter id with queue := rest, waiters := others } := by
  simp only [handFirst]
  rw [queue, waiters]

structure Handed (task : Nat) (now : Rat) (server : Server σ) (arrival : Connection)
    (handed : Server σ) : Prop where
  reads : handed.handlers = [⟨task, true, server.nextId, now⟩]
  waiters : handed.waiters = []
  found : handed.connection? server.nextId =
    some { arrival with id := server.nextId, standing := .handed }
  accepted : handed.accepted = server.accepted ++ [server.nextId]
  served : handed.served = server.served
  dispatcher : handed.dispatcher = server.dispatcher
  timeout : handed.timeout = server.timeout
  listening : handed.isListening = server.isListening

theorem handed_register (numbered : server.Numbered) (now : Rat) (arrival : Connection)
    (admits : server.fate = .queued) (queue : server.queue = [])
    (waiters : server.waiters = [⟨task, .serve⟩]) (handlers : server.handlers = []) :
    server.Handed task now arrival ((server.register arrival).handFirst now) := by
  have queued : (server.register arrival).queue = [server.nextId] := by
    rw [queue_register, if_pos admits, queue, List.nil_append]
  have waiting : (server.register arrival).waiters = [⟨task, .serve⟩] := by
    rw [waiters_register, waiters]
  rw [handFirst_eq queued waiting]
  constructor
  case reads => simp [hand, Waiter.handler?, handlers]
  case waiters => rfl
  case found =>
    have found := connection?_register numbered arrival server.nextId
    simp only [if_true, admits] at found
    have marked := (server.register arrival).connection?_update
      (fun connection => connection.mark_id .handed) server.nextId server.nextId
    rw [if_pos rfl, found] at marked
    exact marked
  case accepted => exact congrArg (· ++ [server.nextId]) (server.accepted_register arrival)
  case served => exact server.served_register arrival
  case dispatcher => exact server.dispatcher_register arrival
  case timeout => exact server.timeout_register arrival
  case listening =>
    exact congrArg₂ (fun listening stopped => listening && !stopped)
      (server.listening_register arrival) (server.stopped_register arrival)

theorem arrive_idle [Outlet σ] {now : Rat} {arrival : Connection} (admits : server.fate = .queued)
    (queue : server.queue = []) (waiters : server.waiters = [⟨task, .serve⟩])
    (handed : server.Handed task now arrival ((server.register arrival).handFirst now)) :
    server.arrive now arrival = ((server.register arrival).handFirst now).read now
      ⟨task, true, server.nextId, now⟩ := by
  have queued : (server.register arrival).queue = [server.nextId] := by
    rw [queue_register, if_pos admits, queue, List.nil_append]
  have waiting : (server.register arrival).waiters = [⟨task, .serve⟩] := by
    rw [waiters_register, waiters]
  simp only [arrive, settle]
  simp only [admits, if_true, queued, List.foldl_cons, List.foldl_nil]
  simp only [settleFirst]
  rw [queued, waiting]
  simp [readIfHandled, handler?, handed.reads]

structure Left (task : Nat) (server : Server σ) (id : Nat) (left : Server σ) : Prop where
  standing : left.standing? id = some .handled
  closed : left.isOpen id = false
  waiters : left.waiters = [⟨task, .serve⟩]
  handlers : left.handlers = []
  accepted : left.accepted = server.accepted
  served : left.served = server.served + 1
  dispatcher : left.dispatcher = server.dispatcher

theorem leave_repeats {handler : Handler} (repeats : handler.repeats = true)
    (listening : server.isListening = true) :
    server.leave handler = { server.release handler.connection with
      waiters := server.waiters ++ [⟨handler.task, .serve⟩] } := by
  have waits : (server.release handler.connection).isListening = true := listening
  simp only [leave, await]
  simp only [repeats, waits, if_true]
  rfl

theorem left_leave {handler : Handler} (repeats : handler.repeats = true)
    (listening : server.isListening = true) (waiters : server.waiters = [])
    (handlers : ∀ other ∈ server.handlers, other.connection = handler.connection)
    (found : server.standing? handler.connection ≠ none)
    (closed : server.isOpen handler.connection = false) :
    server.Left handler.task handler.connection (server.leave handler) := by
  rw [leave_repeats repeats listening]
  constructor
  case standing =>
    obtain ⟨standing, stands⟩ := Option.ne_none_iff_exists'.mp found
    refine (server.standing?_release handler.connection handler.connection).trans ?_
    rw [if_pos rfl, stands]
    rfl
  case closed => exact (server.isOpen_release _ _).trans closed
  case waiters => exact congrArg (· ++ [⟨handler.task, .serve⟩]) waiters
  case handlers =>
    refine List.filter_eq_nil_iff.mpr fun other member => ?_
    simp [handlers other member]
  case accepted => rfl
  case served => rfl
  case dispatcher => rfl

theorem left_endHandling (handler : Handler) (repeats : handler.repeats = true)
    (listening : server.isListening = true) (waiters : server.waiters = [])
    (handlers : ∀ other ∈ server.handlers, other.connection = handler.connection)
    (found : server.standing? handler.connection ≠ none) (record : Journal.Record) :
    server.Left handler.task handler.connection (server.endHandling handler record) := by
  have left : (server.dismiss handler.connection record).Left handler.task handler.connection
      (server.endHandling handler record) := by
    refine left_leave repeats listening waiters handlers ?_ ?_
    · rw [standing?_dismiss]
      exact found
    · rw [isOpen_dismiss, if_pos rfl]
  exact ⟨left.standing, left.closed, left.waiters, left.handlers, left.accepted, left.served,
    left.dispatcher⟩

theorem left_read [Outlet σ] {now : Rat} {arrival : Connection} {handed : Server σ}
    (there : server.Handed task now arrival handed) (listening : server.isListening = true)
    (ends : server.neverWaits = true ∨ arrival.ending ≠ none) :
    ∃ before : Server σ, before.Left task server.nextId
        (handed.read now ⟨task, true, server.nextId, now⟩) ∧
      before.accepted = handed.accepted ∧ before.served = handed.served ∧
      before.dispatcher = if server.neverWaits then handed.dispatcher
        else (handed.dispatcher.dispatchBytes arrival.unread).1 := by
  have never := neverWaits_congr there.timeout
  have listens := there.listening.trans listening
  have single : ∀ other ∈ handed.handlers, other.connection = server.nextId := by
    simp [there.reads]
  have stands : handed.standing? server.nextId ≠ none := by simp [standing?, there.found]
  have found : handed.connection? (Handler.mk task true server.nextId now).connection =
    some { arrival with id := server.nextId, standing := .handed } := there.found
  rcases read_cases now found with ⟨waits, shape⟩ | ⟨waits, ending, ended, shape⟩ |
    ⟨waits, lasts, shape⟩
  · rw [shape]
    rw [never] at waits
    refine ⟨handed, ?_, rfl, rfl, by rw [if_pos waits]⟩
    exact left_endHandling ⟨task, true, server.nextId, now⟩ rfl listens there.waiters single stands _
  · rw [shape]
    rw [never] at waits
    refine ⟨handed.consume now server.nextId arrival.unread, ?_, ?_, ?_, ?_⟩
    · refine left_endHandling ⟨task, true, server.nextId, now⟩ rfl ?_ ?_ ?_ ?_ _
      · rw [consume_eq]
        exact listens
      · rw [consume_eq]
        exact there.waiters
      · intro other member
        have connections := connections_consume_handlers handed now server.nextId arrival.unread
        rw [there.reads] at connections
        have present := List.mem_map_of_mem (f := Handler.connection) member
        rw [connections] at present
        exact List.mem_singleton.mp present
      · rw [standing?_consume]
        exact stands
    · rw [consume_eq]
      rfl
    · rw [consume_eq]
      rfl
    · rw [waits, consume_eq]
      rfl
  · have none : arrival.ending = none := lasts
    rw [never] at waits
    simp [waits, none] at ends

theorem stays_read [Outlet σ] {now : Rat} {arrival : Connection} {handed : Server σ}
    (there : server.Handed task now arrival handed) (waits : server.neverWaits = false)
    (lasts : arrival.ending = none) (fresh : arrival.closes = 0) :
    let read := handed.read now ⟨task, true, server.nextId, now⟩
    read.isOpen server.nextId = true ∧ read.handlers = [⟨task, true, server.nextId, now⟩] ∧
      read.accepted = handed.accepted ∧
      read.dispatcher = (handed.dispatcher.dispatchBytes arrival.unread).1 := by
  have never := neverWaits_congr there.timeout
  have found : handed.connection? (Handler.mk task true server.nextId now).connection =
    some { arrival with id := server.nextId, standing := .handed } := there.found
  have shape : handed.read now ⟨task, true, server.nextId, now⟩ =
      handed.consume now server.nextId arrival.unread := by
    rcases read_cases now found with ⟨late, _⟩ | ⟨_, ending, ended, _⟩ | ⟨_, _, shape⟩
    · simp [never, waits] at late
    · simp [lasts] at ended
    · exact shape
  dsimp only
  rw [shape]
  refine ⟨?_, ?_, ?_, ?_⟩
  · rw [isOpen_consume, isOpen_eq, there.found]
    simp [Connection.isOpen, fresh]
  · rw [consume_eq]
    dsimp only
    split
    · exact there.reads
    · simp [touch, there.reads]
  · rw [consume_eq]
    rfl
  · rw [consume_eq]

theorem Coherent.closed_of_ended (coherent : server.Coherent)
    (ended : ∀ id ∈ server.accepted ++ server.queue, server.isOpen id = false) (id : Nat) :
    server.isOpen id = false := by
  cases opened : server.isOpen id with
  | false => rfl
  | true =>
      have admitted : id ∈ server.accepted ++ server.queue := by
        rcases coherent.openAdmitted id opened with queued | handed
        · exact List.mem_append_right _ ((coherent.queued id).mpr queued)
        · exact List.mem_append_left _ ((coherent.accepted id).mpr (Or.inl handed))
      rw [ended id admitted] at opened
      exact opened.symm

/-- Whenever a server whose loop serves has settled and none of its clients is still connected, it
is as it was before the first one: the slot is free, each connection has been counted and closed
once, the loop waits, and the next client is accepted and read. -/
theorem serving_returns [Outlet σ] {start : Server σ} {moves : List Move} (fresh : start.Fresh)
    (run : Run (singly task) start moves server) (started : Move.await ⟨task, .serve⟩ ∈ moves)
    (listening : server.isListening = true) (settled : server.Settled)
    (ended : ∀ id ∈ server.accepted ++ server.queue, server.isOpen id = false) :
    server.active = none ∧ server.served = server.accepted.length ∧
    (∀ connection ∈ server.connections, connection.closes = 1) ∧
    (∀ before, before <+: moves →
      ∀ entry ∈ (before.foldl perform start).finished, entry.2 = .released) ∧
    server.waiters = [⟨task, .serve⟩] ∧ server.handlers = [] ∧ server.queue = [] ∧
    ∀ (now : Rat) (arrival : Connection), arrival.taken = [] → arrival.closes = 0 →
      let next := server.arrive now arrival
      next.accepted = server.accepted ++ [server.nextId] ∧
      next.dispatcher = (if server.neverWaits then server.dispatcher
        else (server.dispatcher.dispatchBytes arrival.unread).1) ∧
      (server.neverWaits = true ∨ arrival.ending ≠ none →
        next.standing? server.nextId = some .handled ∧ next.isOpen server.nextId = false ∧
        next.served = server.served + 1 ∧ next.waiters = [⟨task, .serve⟩]) ∧
      (server.neverWaits = false → arrival.ending = none →
        next.isOpen server.nextId = true ∧
        next.handlers = [⟨task, true, server.nextId, now⟩]) := by
  obtain ⟨coherent, looped, tasks, present, once⟩ := run.served fresh
  have running : server.stopped = false := by
    simp only [isListening, Bool.and_eq_true, Bool.not_eq_true'] at listening
    exact listening.2
  obtain rfl := once started
  replace present := present running
  have closed := coherent.closed_of_ended ended
  have handlers : server.handlers = [] := by
    refine List.eq_nil_iff_forall_not_mem.mpr fun handler reads => ?_
    have opened := ((settled.attentive.awaits handler reads).resolve_left id).isOpen
    simp [closed] at opened
  have waiters : server.waiters = [⟨task, .serve⟩] := by
    have loop := present.loop
    rw [handlers, List.map_nil, List.append_nil] at loop
    obtain ⟨waiter, waits, name⟩ := List.map_eq_singleton_iff.mp loop
    have serves := looped.serving waiter (by simp [waits])
    rw [waits, ← name, ← serves]
  have queue : server.queue = [] := settled.calm.resolve_right (by simp [waiters])
  have vacant : server.active = none := by
    refine Option.eq_none_iff_forall_ne_some.mpr fun id active => ?_
    rcases coherent.activeAdmitted id active with queued | handed | discarded
    · have waits := (coherent.queued id).mpr queued
      simp [queue] at waits
    · have reads := looped.handled id handed
      simp [handlers] at reads
    · have stopped := coherent.discardedStopped id discarded
      simp [running] at stopped
  refine ⟨vacant, ?_, ?_, fun _ earlier => run.unfinished fresh running earlier, waiters, handlers,
    queue, ?_⟩
  · have counted := looped.counted
    rwa [handlers, List.length_nil, Nat.add_zero] at counted
  · intro connection member
    have once := coherent.closedOnce connection member
    have shut := closed connection.id
    rw [isOpen_eq, coherent.numbered.connection?_of_mem member] at shut
    have unopened : connection.closes ≠ 0 := by simpa [Connection.isOpen] using shut
    omega
  · intro now arrival _ fresh
    have admits : server.fate = .queued := by simp [fate, running, vacant]
    have there := handed_register coherent.numbered now arrival admits queue waiters handlers
    dsimp only
    rw [arrive_idle admits queue waiters there]
    by_cases ends : server.neverWaits = true ∨ arrival.ending ≠ none
    · obtain ⟨before, left, accepted, served, dispatcher⟩ := left_read there listening ends
      refine ⟨?_, ?_, fun _ => ?_, fun waits lasts => ?_⟩
      · rw [left.accepted, accepted, there.accepted]
      · rw [left.dispatcher, dispatcher, there.dispatcher]
      · rw [left.served, served, there.served]
        exact ⟨left.standing, left.closed, rfl, left.waiters⟩
      · simp [waits, lasts] at ends
    · obtain ⟨waits, lasts⟩ := not_or.mp ends
      rw [Bool.not_eq_true] at waits
      rw [not_not] at lasts
      obtain ⟨opened, reads, accepted, dispatcher⟩ := stays_read there waits lasts fresh
      refine ⟨?_, ?_, fun either => absurd either ends, fun _ _ => ⟨opened, reads⟩⟩
      · rw [accepted, there.accepted]
      · rw [dispatcher, there.dispatcher, waits]
        rfl

/-- A client that comes before the loop starts, whose stream is reset after one byte, and whose
connection cannot be closed in peace. -/
theorem serving_returns_after_reset :
    let start : Server Recorder := { path := "swi.sock" }
    let arrival : Connection :=
      { id := 0, unread := [0x50], ending := some .reset, scripted := true, closeFails := true }
    let moves : List Move := [.listen, .arrive arrival, .await ⟨7, .serve⟩, .hand 0,
      .consume 0 1 [0x50], .conclude 1 .reset, .leave ⟨7, true, 1, 0⟩]
    let server := moves.foldl perform start
    start.Fresh ∧ Run (singly 7) start moves server ∧ Move.await ⟨7, .serve⟩ ∈ moves ∧
      server.isListening = true ∧ server.Settled ∧
      (∀ id ∈ server.accepted ++ server.queue, server.isOpen id = false) ∧
      server.active = none ∧ server.served = 1 ∧ server.waiters = [⟨7, .serve⟩] ∧
      (server.arrive 1 { id := 0 }).accepted = [1, 2] ∧
      (server.arrive 1 { id := 0 }).handlers = [⟨7, true, 2, 1⟩] := by
  intro start arrival moves server
  have fresh : start.Fresh := rfl
  have run : Run (singly 7) start moves server := by
    refine Run.move (.leave ⟨7, true, 1, 0⟩) (Run.move (.conclude 1 .reset)
      (Run.move (.consume 0 1 [0x50]) (Run.move (.hand 0) (Run.move (.await ⟨7, .serve⟩)
      (Run.move (.arrive arrival) (Run.move .listen Run.still trivial) ⟨rfl, rfl⟩) ?_) trivial)
      ?_) ?_) ?_
    · exact ⟨rfl, by decide, rfl, rfl⟩
    · exact ⟨by decide, by decide⟩
    · exact ⟨by decide, by decide, by decide⟩
    · exact ⟨by decide, by decide⟩
  have started : Move.await ⟨7, .serve⟩ ∈ moves := by simp [moves]
  have listening : server.isListening = true := by decide
  have idle : server.handlers = [] := by decide
  have settled : server.Settled := ⟨⟨by simp [idle], fun _ => by decide⟩, Or.inl (by decide)⟩
  have ended : ∀ id ∈ server.accepted ++ server.queue, server.isOpen id = false := by decide
  have accepted : server.accepted = [1] := by decide
  obtain ⟨vacant, served, _, _, waiters, _, _, next⟩ :=
    serving_returns fresh run started listening settled ended
  obtain ⟨taken, _, _, stays⟩ := next 1 { id := 0 } rfl rfl
  rw [accepted] at served taken
  exact ⟨fresh, run, started, listening, settled, ended, vacant, served, waiters, taken,
    (stays (by decide) rfl).2⟩

end Server
end SteeringChannel
