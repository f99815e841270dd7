import SteeringChannel.Proofs.Server.Operation

/-!
Where the operations end. Nobody waits while the queue has something for him, and every connection
that is handled waits for its next byte.
-/

namespace SteeringChannel.Server

variable {σ : Type} {server other : Server σ}

structure Awaits (server : Server σ) (id : Nat) : Prop where
  isOpen : server.isOpen id = true
  unread : server.unread id = []
  ending : server.ending? id = none
  waits : server.neverWaits = false

structure Attentive (excepted : Handler → Prop) (server : Server σ) : Prop where
  awaits : ∀ handler ∈ server.handlers, excepted handler ∨ server.Awaits handler.connection
  drained : server.stopped = true → server.queue = []

def Calm (server : Server σ) : Prop := server.queue = [] ∨ server.waiters = []

structure Resting (excepted : Handler → Prop) (server : Server σ) : Prop where
  attentive : server.Attentive excepted
  calm : server.Calm

/-- Nothing more happens without somebody else. -/
abbrev Settled (server : Server σ) : Prop := server.Resting fun _ => False

theorem Fresh.settled (fresh : server.Fresh) : server.Settled := by
  rw [fresh]
  exact ⟨⟨fun _ reads => absurd reads List.not_mem_nil, fun _ => rfl⟩, Or.inl rfl⟩

theorem Settled.handlers_eq_nil (settled : server.Settled)
    (closed : ∀ id, server.isOpen id = false) : server.handlers = [] := by
  refine List.eq_nil_iff_forall_not_mem.mpr fun handler reads => ?_
  have awaits := (settled.attentive.awaits handler reads).resolve_left id
  exact nomatch (closed _).symm.trans awaits.isOpen

theorem neverWaits_congr (timeout : other.timeout = server.timeout) :
    other.neverWaits = server.neverWaits := by
  simp only [neverWaits, limit]
  rw [timeout]

theorem Awaits.elsewhere {id : Nat} (awaits : server.Awaits id)
    (isOpen : other.isOpen id = server.isOpen id) (unread : other.unread id = server.unread id)
    (ending : other.ending? id = server.ending? id) (timeout : other.timeout = server.timeout) :
    other.Awaits id :=
  { isOpen := isOpen.trans awaits.isOpen
    unread := unread.trans awaits.unread
    ending := ending.trans awaits.ending
    waits := (neverWaits_congr timeout).trans awaits.waits }

theorem queue_endHandling (server : Server σ) (handler : Handler) (record : Journal.Record) :
    (server.endHandling handler record).queue = server.queue :=
  queue_leave (server.dismiss handler.connection record) handler

theorem queue_consume [Outlet σ] (server : Server σ) (now : Rat) (id : Nat) (bytes : List UInt8) :
    (server.consume now id bytes).queue = server.queue := by
  rw [consume_eq]
  rfl

namespace Attentive

variable {excepted : Handler → Prop}

theorem mono {more : Handler → Prop} (attentive : server.Attentive excepted)
    (fewer : ∀ handler ∈ server.handlers, excepted handler →
      more handler ∨ server.Awaits handler.connection) : server.Attentive more := by
  refine ⟨fun handler present => ?_, attentive.drained⟩
  exact (attentive.awaits handler present).elim (fewer handler present) Or.inr

theorem elsewhere (attentive : server.Attentive excepted)
    (handlers : ∀ handler ∈ other.handlers, handler ∈ server.handlers)
    (awaits : ∀ handler ∈ other.handlers, server.Awaits handler.connection →
      other.Awaits handler.connection)
    (stopped : other.stopped = server.stopped) (queue : other.queue = server.queue) :
    other.Attentive excepted := by
  refine ⟨fun handler present => ?_, ?_⟩
  · exact (attentive.awaits handler (handlers handler present)).imp_right (awaits handler present)
  · rw [stopped, queue]
    exact attentive.drained

theorem dismiss (attentive : server.Attentive excepted) (id : Nat) (record : Journal.Record) :
    (server.dismiss id record).Attentive fun handler => handler.connection = id ∨ excepted handler := by
  refine ⟨fun handler present => ?_, attentive.drained⟩
  by_cases same : handler.connection = id
  · exact Or.inl (Or.inl same)
  · refine (attentive.awaits handler present).imp Or.inr fun awaits => ?_
    refine awaits.elsewhere ?_ (server.unread_dismiss id handler.connection record)
      (server.ending?_dismiss id handler.connection record) rfl
    rw [isOpen_dismiss, if_neg same]

theorem leave {handler : Handler} (attentive : server.Attentive fun other =>
      other.connection = handler.connection ∨ excepted other) :
    (server.leave handler).Attentive excepted := by
  have same := server.sameStream_leave handler
  have timeout := (leave_policy server handler).2
  obtain ⟨waiters, records, finished, shape⟩ := server.leave_shape handler
  rw [shape] at same timeout ⊢
  refine ⟨fun other present => ?_, attentive.drained⟩
  obtain ⟨before, different⟩ := List.mem_filter.mp present
  rcases attentive.awaits other before with (left | out) | awaits
  · simp [left] at different
  · exact Or.inl out
  · have kept := same other.connection
    exact Or.inr (awaits.elsewhere kept.isOpen kept.unread kept.ending timeout)

theorem consume [Outlet σ] {id : Nat} (attentive : server.Attentive fun handler =>
      handler.connection = id ∨ excepted handler) (now : Rat) (bytes : List UInt8) :
    (server.consume now id bytes).Attentive fun handler =>
      handler.connection = id ∨ excepted handler := by
  have stopped : (server.consume now id bytes).stopped = server.stopped := by
    rw [consume_eq]
    rfl
  have timeout : (server.consume now id bytes).timeout = server.timeout := by
    rw [consume_eq]
    rfl
  refine ⟨fun handler present => ?_, by rw [queue_consume, stopped]; exact attentive.drained⟩
  by_cases same : handler.connection = id
  · exact Or.inl (Or.inl same)
  · have before : handler ∈ server.handlers := by
      rw [consume_eq] at present
      dsimp only at present
      split at present
      · exact present
      · obtain ⟨before, member, touched⟩ := List.mem_map.mp present
        split at touched
        next matched =>
          rw [← touched] at same
          exact absurd (by simpa using matched) same
        next => exact touched ▸ member
    refine (attentive.awaits handler before).imp_right fun awaits => ?_
    refine awaits.elsewhere (server.isOpen_consume now id _ bytes) ?_
      (server.ending?_consume now id _ bytes) timeout
    rw [unread_consume, if_neg same]

theorem read [Outlet σ] {handler : Handler} (attentive : server.Attentive fun other =>
      other.connection = handler.connection ∨ excepted other)
    (opened : server.isOpen handler.connection = true) (now : Rat) :
    (server.read now handler).Attentive excepted := by
  have ended {server : Server σ} (record : Journal.Record)
      (attentive : server.Attentive fun other =>
        other.connection = handler.connection ∨ excepted other) :
      (server.endHandling handler record).Attentive excepted :=
    leave ((attentive.dismiss handler.connection record).mono
      fun _ _ either => Or.inl (either.elim Or.inl id))
  cases found : server.connection? handler.connection with
  | none => simp [Server.isOpen, found] at opened
  | some connection =>
      rcases read_cases now found with ⟨_, shape⟩ | ⟨_, ending, _, shape⟩ | ⟨waits, lasts, shape⟩
      · rw [shape]
        exact ended _ attentive
      · rw [shape]
        exact ended _ (attentive.consume now connection.unread)
      · rw [shape]
        -- The connection is read out and lasts, so its task awaits the next byte.
        have awaits : (server.consume now handler.connection connection.unread).Awaits
            handler.connection := by
          constructor
          case isOpen => rw [isOpen_consume, opened]
          case unread => rw [unread_consume, if_pos rfl, unread, found]; simp
          case ending => rw [ending?_consume]; simp [ending?, found, lasts]
          case waits =>
            rw [← waits]
            apply neverWaits_congr
            rw [consume_eq]
            rfl
        refine (attentive.consume now connection.unread).mono fun other _ either => ?_
        exact either.elim (fun same => Or.inr (same ▸ awaits)) Or.inl

theorem readIfHandled [Outlet σ] {id : Nat} (attentive : server.Attentive fun handler =>
      handler.connection = id ∨ excepted handler) (opened : server.isOpen id = true) (now : Rat) :
    (server.readIfHandled now id).Attentive excepted := by
  simp only [Server.readIfHandled]
  split
  next handler found =>
    obtain ⟨_, rfl⟩ := handler?_mem found
    exact attentive.read opened now
  next absent =>
    refine attentive.mono fun handler present either => Or.inl (either.resolve_left fun same => ?_)
    have unmatched := List.find?_eq_none.mp absent handler present
    simp [same] at unmatched

theorem handFirst {id : Nat} {rest : List Nat} (attentive : server.Attentive excepted)
    (queue : server.queue = id :: rest) (now : Rat) :
    (server.handFirst now).Attentive fun handler => handler.connection = id ∨ excepted handler := by
  have drained := attentive.drained
  rw [queue] at drained
  unfold Server.handFirst
  rw [queue]
  dsimp only
  split
  next first others waiter more heads waiters =>
    obtain ⟨rfl, rfl⟩ := List.cons.inj heads
    refine ⟨fun handler present => ?_, fun stopped => absurd (drained stopped) (by simp)⟩
    rcases List.mem_append.mp present with before | new
    · refine (attentive.awaits handler before).imp Or.inr fun awaits => ?_
      exact awaits.elsewhere (server.isOpen_hand now waiter id _)
        (server.unread_hand now waiter id _) (server.ending?_hand now waiter id _) rfl
    · exact Or.inl (Or.inl (waiter.connection_handler? now id _ (List.mem_map_of_mem new)))
  next => exact attentive.mono fun _ _ out => Or.inl (Or.inr out)

theorem head_isOpen {id : Nat} {rest : List Nat} (attentive : server.Attentive excepted)
    (coherent : server.Coherent) (queue : server.queue = id :: rest) :
    server.isOpen id = true := by
  refine (coherent.queuedOpen id (by simp [queue])).resolve_left fun stopped => ?_
  have empty := attentive.drained stopped
  simp [queue] at empty

theorem settleFirst [Outlet σ] (attentive : server.Attentive excepted) (coherent : server.Coherent)
    (now : Rat) : (server.settleFirst now).Attentive excepted := by
  simp only [Server.settleFirst]
  split
  next id rest waiter others queue _ =>
    refine (attentive.handFirst queue now).readIfHandled ?_ now
    rw [(server.sameStream_handFirst now id).isOpen]
    exact attentive.head_isOpen coherent queue
  next => exact attentive

theorem settle [Outlet σ] (attentive : server.Attentive excepted) (coherent : server.Coherent) (now : Rat) :
    (server.settle now).Attentive excepted := by
  simp only [Server.settle]
  generalize server.queue = steps
  induction steps generalizing server with
  | nil => exact attentive
  | cons _ rest ih =>
      exact ih (attentive.settleFirst coherent now)
        ((server.reaches_settleFirst now).coherent coherent)

end Attentive

theorem Calm.settleFirst [Outlet σ] (calm : server.Calm) (now : Rat) :
    server.settleFirst now = server := by
  simp only [Server.settleFirst]
  rcases calm with queue | waiters
  · rw [queue]
  · split
    next waiters' => simp [waiters] at waiters'
    next => rfl

theorem queue_readIfHandled [Outlet σ] (server : Server σ) (now : Rat) (id : Nat) :
    (server.readIfHandled now id).queue = server.queue := by
  simp only [readIfHandled]
  split
  next handler _ =>
    cases found : server.connection? handler.connection with
    | none => simp [read, found]
    | some connection =>
        rcases read_cases now found with ⟨_, shape⟩ | ⟨_, _, _, shape⟩ | ⟨_, _, shape⟩
        · rw [shape, queue_endHandling]
        · rw [shape, queue_endHandling, queue_consume]
        · rw [shape, queue_consume]
  next => rfl

theorem queue_settleFirst [Outlet σ] (now : Rat) (busy : ¬ server.Calm) :
    (server.settleFirst now).queue = server.queue.tail := by
  obtain ⟨queued, waited⟩ := not_or.mp busy
  simp only [settleFirst]
  split
  next id rest waiter others queue waiters =>
    rw [queue_readIfHandled, handFirst, queue, waiters]
    rfl
  next nothing =>
    obtain ⟨id, rest, queue⟩ := List.exists_cons_of_ne_nil queued
    obtain ⟨waiter, others, waiters⟩ := List.exists_cons_of_ne_nil waited
    exact absurd waiters (nothing id rest waiter others queue)

theorem Calm.foldl_settleFirst [Outlet σ] (calm : server.Calm) (now : Rat) (steps : List Nat) :
    steps.foldl (fun server _ => server.settleFirst now) server = server := by
  induction steps with
  | nil => rfl
  | cons _ rest ih => rw [List.foldl_cons, calm.settleFirst now, ih]

theorem calm_foldl_settleFirst [Outlet σ] (server : Server σ) (now : Rat) (steps : List Nat)
    (enough : server.queue.length ≤ steps.length) :
    (steps.foldl (fun server _ => server.settleFirst now) server).Calm := by
  induction steps generalizing server with
  | nil => exact Or.inl (List.length_eq_zero_iff.mp (Nat.le_zero.mp enough))
  | cons _ rest ih =>
      by_cases calm : server.Calm
      · rw [calm.foldl_settleFirst now]
        exact calm
      · refine ih (server.settleFirst now) ?_
        rw [queue_settleFirst now calm, List.length_tail]
        rw [List.length_cons] at enough
        omega

theorem resting_settle [Outlet σ] {excepted : Handler → Prop}
    (attentive : server.Attentive excepted) (coherent : server.Coherent) (now : Rat) :
    (server.settle now).Resting excepted :=
  ⟨attentive.settle coherent now, calm_foldl_settleFirst server now server.queue (Nat.le_refl _)⟩

theorem Attentive.register {excepted : Handler → Prop} (attentive : server.Attentive excepted)
    (numbered : server.Numbered) (arrival : Connection) :
    (server.register arrival).Attentive excepted := by
  refine ⟨fun handler present => ?_, fun stopped => ?_⟩
  · rw [handlers_register] at present
    refine (attentive.awaits handler present).imp_right fun awaits => ?_
    have different : handler.connection ≠ server.nextId := by
      intro same
      have opened := awaits.isOpen
      rw [same, isOpen_eq, numbered.connection?_nextId] at opened
      simp at opened
    refine awaits.elsewhere ?_ ?_ ?_ (server.timeout_register arrival)
    · rw [isOpen_eq, isOpen_eq, connection?_register numbered, if_neg different]
    · rw [unread_register numbered, if_neg different]
    · rw [ending?_register numbered, if_neg different]
  · rw [stopped_register] at stopped
    rw [queue_register, if_neg (by simp [server.fate_of_stopped stopped])]
    exact attentive.drained stopped

theorem Settled.arrive [Outlet σ] (settled : server.Settled) (coherent : server.Coherent)
    (now : Rat) {arrival : Connection} (untaken : arrival.taken = []) (fresh : arrival.closes = 0) :
    (server.arrive now arrival).Settled := by
  have registered := settled.attentive.register coherent.numbered arrival
  simp only [Server.arrive]
  split
  · exact resting_settle registered (coherent.register untaken fresh) now
  next refused =>
    refine ⟨registered, settled.calm.imp ?_ ?_⟩
    · rw [queue_register, if_neg refused]
      exact id
    · rw [waiters_register]
      exact id

theorem Attentive.receive {excepted : Handler → Prop} (attentive : server.Attentive excepted)
    (id : Nat) (bytes : List UInt8) : (server.receive id bytes).Attentive fun handler =>
      handler.connection = id ∨ excepted handler := by
  refine ⟨fun handler present => ?_, attentive.drained⟩
  by_cases same : handler.connection = id
  · exact Or.inl (Or.inl same)
  · refine (attentive.awaits handler present).imp Or.inr fun awaits => ?_
    refine awaits.elsewhere (server.isOpen_receive id _ bytes) ?_
      (server.ending?_receive id _ bytes) rfl
    rw [unread_receive, if_neg fun all => same all.1]

theorem Settled.deliver [Outlet σ] (settled : server.Settled) (coherent : server.Coherent)
    (now : Rat) (id : Nat) (bytes : List UInt8) : (server.deliver now id bytes).Settled := by
  simp only [Server.deliver]
  split
  next opened =>
    have received := settled.attentive.receive id bytes
    refine resting_settle (received.readIfHandled ?_ now) ?_ now
    · rw [isOpen_receive, opened]
    · exact (reaches_readIfHandled _ now id).coherent (coherent.receive id bytes)
  next => exact settled

theorem Attentive.finish {excepted : Handler → Prop} (attentive : server.Attentive excepted)
    (id : Nat) (ending : Ending) : (server.finish id ending).Attentive fun handler =>
      handler.connection = id ∨ excepted handler := by
  refine ⟨fun handler present => ?_, attentive.drained⟩
  by_cases same : handler.connection = id
  · exact Or.inl (Or.inl same)
  · refine (attentive.awaits handler present).imp Or.inr fun awaits => ?_
    refine awaits.elsewhere (server.isOpen_finish id _ ending) (server.unread_finish id _ ending)
      ?_ rfl
    rw [ending?_finish, if_neg fun all => same all.1]

theorem Attentive.endStream [Outlet σ] {excepted : Handler → Prop}
    (attentive : server.Attentive excepted) (now : Rat) (id : Nat) (ending : Ending) :
    (server.endStream now id ending).Attentive excepted := by
  simp only [Server.endStream]
  split
  next opened =>
    refine (attentive.finish id ending).readIfHandled ?_ now
    rw [isOpen_finish, opened]
  next => exact attentive

theorem Settled.hangUp [Outlet σ] (settled : server.Settled) (coherent : server.Coherent)
    (now : Rat) (id : Nat) (ending : Ending) : (server.hangUp now id ending).Settled :=
  resting_settle (settled.attentive.endStream now id ending)
    ((server.reaches_endStream now id ending).coherent coherent) now

theorem Settled.startTask [Outlet σ] (settled : server.Settled) (coherent : server.Coherent)
    (now : Rat) (task : Nat) (duty : Duty) : (server.startTask now task duty).Settled := by
  refine resting_settle ?_ (coherent.await ⟨task, duty⟩) now
  obtain ⟨waiters, records, finished, shape⟩ := server.await_shape ⟨task, duty⟩
  rw [shape]
  exact settled.attentive.elsewhere (fun _ present => present)
    (fun _ _ awaits => awaits.elsewhere rfl rfl rfl rfl) rfl rfl

end SteeringChannel.Server
