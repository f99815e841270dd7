import SteeringChannel.Proofs.Server.Admission

/-!
What a jump of the clock does to a server with one loop. It gives up the connection that the loop
reads, if that one has waited long enough, and nothing else; whoever is next in the queue is handed
over then, and waits from that moment on.
-/

namespace SteeringChannel.Server

variable {σ : Type} [Outlet σ] {server other : Server σ} {starts : Server σ → Waiter → Prop}
  {now : Rat}

def Heeded (server : Server σ) : Prop :=
  server.waiters ≠ [] ∨ server.handlers ≠ [] → server.listening = true ∨ server.stopped = true

omit [Outlet σ] in
theorem Heeded.fewer (heeded : server.Heeded) (waiters : server.waiters = [] → other.waiters = [])
    (handlers : ∀ handler ∈ other.handlers, server.handlers ≠ [])
    (listening : other.listening = server.listening) (stopped : other.stopped = server.stopped) :
    other.Heeded := by
  intro some
  rw [listening, stopped]
  refine heeded (some.imp (mt waiters) fun reads => ?_)
  obtain ⟨handler, present⟩ := List.exists_mem_of_ne_nil _ reads
  exact handlers handler present

omit [Outlet σ] in
theorem Heeded.await (heeded : server.Heeded) (waiter : Waiter) : (server.await waiter).Heeded := by
  simp only [Server.await]
  split
  next listens => exact fun _ => Or.inl (Bool.and_eq_true_iff.mp listens).1
  next => exact heeded

omit [Outlet σ] in
theorem Heeded.leave (heeded : server.Heeded) (handler : Handler) :
    (server.leave handler).Heeded := by
  have released : (server.release handler.connection).Heeded :=
    heeded.fewer id (fun _ reads => List.ne_nil_of_mem (List.mem_filter.mp reads).1) rfl rfl
  simp only [Server.leave]
  split
  · exact released.await _
  · exact released

theorem Heeded.perform (heeded : server.Heeded) {move : Move} (fits : server.Fits starts move) :
    (server.perform move).Heeded := by
  cases move with
  | listen => exact fun _ => Or.inl rfl
  | await waiter => exact heeded.await waiter
  | arrive arrival =>
      exact heeded.fewer (server.waiters_register arrival).trans
        (fun _ reads => List.ne_nil_of_mem (server.handlers_register arrival ▸ reads))
        (server.listening_register arrival) (server.stopped_register arrival)
  | hand moment =>
      simp only [Server.perform, handFirst]
      split
      next id rest waiter others _ waiters => exact fun _ => heeded (Or.inl (by simp [waiters]))
      next => exact heeded
  | consume moment id bytes =>
      have connections := server.connections_consume_handlers moment id bytes
      refine heeded.fewer ?_ (fun handler reads none => ?_) ?_ ?_
      · rw [Server.perform, consume_eq]
        exact fun none => none
      · replace reads := List.mem_map_of_mem (f := Handler.connection) reads
        rw [Server.perform, connections, none] at reads
        exact absurd reads List.not_mem_nil
      · rw [Server.perform, consume_eq]
        rfl
      · rw [Server.perform, consume_eq]
        rfl
  | leave handler => exact heeded.leave handler
  | beginStop => exact fun _ => Or.inr rfl
  | drain => exact fun _ => Or.inr fits.1
  | live moment =>
      cases moment with
      | left handler =>
          have noted : (server.note (Connection.disconnectedRecord handler.connection)).Heeded :=
            heeded
          exact noted.leave handler
      | closeFailed id => exact heeded
      | woken waiter => exact heeded
  | _ => exact heeded

theorem Run.heeded {moves : List Move} (run : Run starts server moves other)
    (heeded : server.Heeded) : other.Heeded :=
  run.keeps (fun _ _ fits heeded => heeded.perform fits) heeded

omit [Outlet σ] in
theorem Fresh.heeded (fresh : server.Fresh) : server.Heeded := by
  rw [fresh]
  rintro (waits | reads)
  · exact absurd rfl waits
  · exact absurd rfl reads

structure Rests (server : Server σ) : Prop where
  coherent : server.Coherent
  looped : server.Looped
  settled : server.Settled
  heeded : server.Heeded
  quenched : server.stopped = true → ∀ id, server.isOpen id = false

omit [Outlet σ] in
theorem Fresh.rests (fresh : server.Fresh) : server.Rests :=
  { coherent := fresh.coherent
    looped := fresh.looped
    settled := fresh.settled
    heeded := fresh.heeded
    quenched := fun _ => by rw [fresh]; exact fun _ => rfl }

omit [Outlet σ] in
theorem Rests.reads (rests : server.Rests) {handler : Handler} (reads : handler ∈ server.handlers) :
    server.isListening = true ∧ server.Awaits handler.connection := by
  have awaits := (rests.settled.attentive.awaits handler reads).resolve_left id
  refine ⟨?_, awaits⟩
  have running : server.stopped = false := by
    rw [← Bool.not_eq_true]
    exact fun stopped => nomatch (rests.quenched stopped _).symm.trans awaits.isOpen
  have listens := rests.heeded (.inr (List.ne_nil_of_mem reads))
  simpa [isListening, running] using listens

structure Without (server : Server σ) (id : Nat) (other : Server σ) : Prop where
  isOpen : ∀ each, other.isOpen each = if each = id then false else server.isOpen each
  ending : ∀ each, other.ending? each = server.ending? each
  taken : ∀ each, other.taken each = server.taken each
  queue : other.queue = server.queue
  accepted : other.accepted = server.accepted
  dispatcher : other.dispatcher = server.dispatcher

omit [Outlet σ] in
theorem Without.trans {middle : Server σ} {id : Nat} (first : server.Without id middle)
    (second : middle.Without id other) : server.Without id other := by
  constructor
  case isOpen =>
    intro each
    rw [second.isOpen, first.isOpen]
    split <;> rfl
  case ending => exact fun each => (second.ending each).trans (first.ending each)
  case taken => exact fun each => (second.taken each).trans (first.taken each)
  case queue => exact second.queue.trans first.queue
  case accepted => exact second.accepted.trans first.accepted
  case dispatcher => exact second.dispatcher.trans first.dispatcher

omit [Outlet σ] in
theorem without_dismiss (server : Server σ) (id : Nat) (record : Journal.Record) :
    server.Without id (server.dismiss id record) :=
  ⟨fun each => server.isOpen_dismiss id each record,
    fun each => server.ending?_dismiss id each record,
    fun each => server.taken_dismiss id each record, rfl, rfl, rfl⟩

omit [Outlet σ] in
theorem Without.reported {id : Nat} (without : server.Without id other) :
    server.Without id other.reported :=
  ⟨without.isOpen, without.ending, without.taken, without.queue, without.accepted,
    without.dispatcher⟩

omit [Outlet σ] in
theorem without_leave {handler : Handler} (closed : server.isOpen handler.connection = false) :
    server.Without handler.connection (server.leave handler) := by
  have same := server.sameStream_leave handler
  constructor
  case isOpen =>
    intro each
    rw [(same each).isOpen]
    split
    next here => rw [here, closed]
    next => rfl
  case ending => exact fun each => (same each).ending
  case taken => exact fun each => (same each).taken
  all_goals
    obtain ⟨waiters, records, finished, shape⟩ := server.leave_shape handler
    rw [shape]
    rfl

structure Freed (server : Server σ) (id : Nat) (left : Server σ) : Prop where
  without : server.Without id left
  coherent : left.Coherent
  looped : left.Looped
  running : left.stopped = false
  waits : left.neverWaits = false
  waiters : left.waiters ≠ []
  handlers : left.handlers = []
  handled : left.standing? id = some .handled

omit [Outlet σ] in
theorem freed_leave {base : Server σ} {handler : Handler}
    (without : server.Without handler.connection base) (coherent : base.Coherent)
    (looped : base.Looped) (listening : base.isListening = true) (waits : base.neverWaits = false)
    (reads : handler ∈ base.handlers) : server.Freed handler.connection (base.leave handler) := by
  have closed : base.isOpen handler.connection = false := by rw [without.isOpen, if_pos rfl]
  obtain ⟨waiters, handlers⟩ := looped.handlers_eq reads
  have stands := coherent.handling handler.connection (List.mem_map_of_mem reads)
  have left := left_leave (looped.repeating handler reads) listening waiters
    (by simp [handlers]) (by simp [stands]) closed
  constructor
  case without => exact without.trans (without_leave closed)
  case coherent => exact coherent.leave reads closed
  case looped => exact looped.leave reads
  case running =>
    rw [stopped_leave]
    simpa using (Bool.and_eq_true_iff.mp listening).2
  case waits => exact (neverWaits_congr (base.leave_policy handler).2).trans waits
  case waiters => simp [left.waiters]
  case handlers => exact left.handlers
  case handled => exact left.standing

theorem Works.alone (works : server.Works now other) : ∃ moves, Run alone server moves other := by
  obtain ⟨moves, run, _⟩ := works
  exact ⟨moves, run.mono fun _ _ nobody => nobody.elim⟩

theorem Works.accepted (works : server.Works now other) : server.accepted <+: other.accepted := by
  refine works.keeps (fun later => server.accepted <+: later.accepted) ?_ List.prefix_rfl
  intro before move _ _ begins
  rcases before.accepted_perform move with same | ⟨id, _, more, _⟩
  · exact same ▸ begins
  · exact begins.trans (more ▸ List.prefix_append _ _)

theorem settle_hands {first : Nat} {rest : List Nat} (queue : server.queue = first :: rest)
    (waits : server.waiters ≠ []) (now : Rat) : first ∈ (server.settle now).accepted := by
  obtain ⟨waiter, others, waiters⟩ := List.exists_cons_of_ne_nil waits
  have handed : first ∈ (server.handFirst now).accepted := by
    rw [handFirst_eq queue waiters]
    exact List.mem_append_right _ (List.mem_singleton.mpr rfl)
  have goes : (server.handFirst now).Works now (server.settle now) := by
    simp only [settle]
    rw [queue, List.foldl_cons]
    refine Works.trans ?_ (works_foldl_settleFirst _ now rest)
    simp only [settleFirst]
    rw [queue, waiters]
    exact works_readIfHandled _ now first
  exact goes.accepted.subset handed

omit [Outlet σ] in
theorem Coherent.isOpen_of_final (coherent : server.Coherent) {id : Nat} {standing : Standing}
    (stands : server.standing? id = some standing) (final : standing.isFinal = true) :
    server.isOpen id = false := by
  obtain ⟨connection, found, closed⟩ := coherent.closed_of_final stands final
  simp [isOpen_eq, found, Connection.isOpen, closed]

theorem Run.taken_of_final {moves : List Move} (run : Run starts server moves other)
    (coherent : server.Coherent) {id : Nat} {standing : Standing}
    (stands : server.standing? id = some standing) (final : standing.isFinal = true) :
    other.taken id = server.taken id := by
  obtain ⟨_, unread⟩ := run.final coherent stands final
  have nothing : Move.readFrom id moves = [] := by
    refine List.flatMap_eq_nil_iff.mpr fun move member => ?_
    cases move with
    | consume moment reader bytes =>
        refine if_neg fun same => ?_
        subst same
        exact unread moment bytes member
    | _ => rfl
  rw [run.taken_append coherent, nothing, List.append_nil]

structure GivesUp (now : Rat) (server : Server σ) (id : Nat) (later : Server σ) : Prop where
  closed : later.isOpen id = false
  handled : later.standing? id = some .handled
  others : ∀ other, other ≠ id → server.isOpen other = true →
    later.isOpen other = true ∨ later.ReadOut other
  next : ∀ first ∈ server.queue.head?, first ∈ later.accepted ∧
    (server.ending? first = none → ∃ handler ∈ later.handlers, handler.connection = first)
  anew : ∀ handler ∈ later.handlers, handler.connection ∈ server.queue ∧ handler.since = now
  taken : ∀ other ∈ server.accepted, later.taken other = server.taken other
  dispatcher : ∃ more, later.accepted = server.accepted ++ more ∧
    later.dispatcher = (server.dispatcher.dispatchBytes (more.flatMap later.taken)).1

theorem GivesUp.reported {id : Nat} {later : Server σ}
    (gives : server.GivesUp now id later) : server.GivesUp now id later.reported :=
  ⟨gives.closed, gives.handled, gives.others, gives.next, gives.anew, gives.taken,
    gives.dispatcher⟩

namespace Freed

variable {id : Nat} {left later : Server σ} (freed : server.Freed id left)
include freed

omit [Outlet σ] in
theorem past {other : Nat} (accepted : other ∈ server.accepted) :
    left.standing? other = some .handled := by
  rw [← freed.without.accepted, freed.coherent.accepted] at accepted
  refine accepted.resolve_left fun handed => ?_
  have reads := freed.looped.handled other handed
  simp [freed.handlers] at reads

omit [Outlet σ] in
theorem patient (now : Rat) (other : Nat) : left.Patient now other :=
  ⟨freed.waits, by simp [freed.handlers]⟩

variable (works : left.Works now later)
include works

theorem anew : ∀ handler ∈ later.handlers,
    handler.connection ∈ server.queue ∧ handler.since = now := by
  intro handler reads
  have line := works.line
  have paced := works.passes.paced freed.coherent
  obtain ⟨moves, run, _⟩ := works
  have coherent := run.coherent freed.coherent
  have handled := List.mem_map_of_mem (f := Handler.connection) reads
  constructor
  · rw [freed.without.accepted, freed.without.queue] at line
    have accepted := coherent.handled_accepted handled
    -- Whoever was accepted before has been left for good, so the loop reads one from the queue.
    refine (List.mem_append.mp (line ▸ List.mem_append_left _ accepted)).resolve_left fun past => ?_
    have still := (run.final freed.coherent (freed.past past) rfl).1
    exact nomatch (coherent.handling _ handled).symm.trans still
  · rcases paced.handlers handler reads with ⟨before, _⟩ | ⟨since, _⟩
    · simp [freed.handlers] at before
    · exact since

theorem hands {first : Nat} (queued : first ∈ server.queue) (accepted : first ∈ later.accepted)
    (lasts : server.ending? first = none) :
    ∃ handler ∈ later.handlers, handler.connection = first := by
  have opened : left.isOpen first = true :=
    (freed.coherent.queuedOpen first (freed.without.queue.symm ▸ queued)).resolve_left
      (by simp [freed.running])
  have still := works.goesOn freed.coherent freed.running (freed.patient now first)
    ((freed.without.ending first).trans lasts) opened
  obtain ⟨moves, run⟩ := works.alone
  have coherent := run.coherent freed.coherent
  have handed : later.standing? first = some .handed := by
    refine ((coherent.accepted first).mp accepted).resolve_right fun handled => ?_
    exact nomatch (coherent.isOpen_of_final handled rfl).symm.trans still
  exact List.mem_map.mp ((run.looped freed.coherent freed.looped).handled first handed)

theorem taken {other : Nat} (accepted : other ∈ server.accepted) :
    later.taken other = server.taken other := by
  obtain ⟨moves, run, _⟩ := works
  exact (run.taken_of_final freed.coherent (freed.past accepted) rfl).trans
    (freed.without.taken other)

theorem dispatches : ∃ more, later.accepted = server.accepted ++ more ∧
    later.dispatcher = (server.dispatcher.dispatchBytes (more.flatMap later.taken)).1 := by
  have taken (other : Nat) (accepted : other ∈ server.accepted) := freed.taken works accepted
  obtain ⟨more, accepted⟩ := works.accepted
  obtain ⟨moves, run⟩ := works.alone
  -- The blocks of all that were accepted before are whole, so the bytes are those of the new ones.
  have blocks := run.blocks freed.coherent freed.looped
  rw [← accepted, List.flatMap_append, freed.without.accepted, List.flatMap_congr taken,
    List.flatMap_congr fun other _ => freed.without.taken other] at blocks
  refine ⟨more, by rw [← accepted, freed.without.accepted], ?_⟩
  rw [run.dispatcher, freed.without.dispatcher, List.append_cancel_left blocks]

omit works in
theorem givesUp (now : Rat) : server.GivesUp now id (left.settle now) := by
  have works := works_settle left now
  obtain ⟨moves, run, _⟩ := works_settle left now
  have handled := (run.final freed.coherent freed.handled rfl).1
  constructor
  case closed => exact (run.coherent freed.coherent).isOpen_of_final handled rfl
  case handled => exact handled
  case others =>
    intro other different opened
    refine works.lasting freed.coherent freed.running (freed.patient now other) ?_
    rw [freed.without.isOpen, if_neg different, opened]
  case next =>
    intro first head
    obtain ⟨rest, queue⟩ := List.head?_eq_some_iff.mp head
    have accepted := settle_hands (freed.without.queue.trans queue) freed.waiters now
    exact ⟨accepted, freed.hands works (by simp [queue]) accepted⟩
  case anew => exact freed.anew works
  case taken => exact fun other => freed.taken works
  case dispatcher => exact freed.dispatches works

end Freed

theorem Rests.givesUp (rests : server.Rests) {handler : Handler}
    (reads : handler ∈ server.handlers) (now : Rat) :
    server.GivesUp now handler.connection
      ((server.expireAll now [handler]).leaveAll now [handler]) := by
  obtain ⟨listening, awaits⟩ := rests.reads reads
  obtain ⟨coherent, looped, _, _, _⟩ := rests
  have handled := List.mem_map_of_mem (f := Handler.connection) reads
  obtain ⟨connection, found, _⟩ := Option.map_eq_some_iff.mp (coherent.handling _ handled)
  let closed := server.dismiss handler.connection (server.idleRecord handler.connection)
  have without : server.Without handler.connection closed := server.without_dismiss _ _
  have kept : closed.Coherent := coherent.dismiss handled _
  have single : closed.Looped :=
    looped.still rfl rfl looped.repeating (fun id => by simp [closed]) rfl rfl
  have expires : server.expire now handler =
      if connection.scripted then (closed.leave handler).settle now else closed := by
    simp only [expire]
    rw [found]
  simp only [expireAll, leaveAll, List.foldl_cons, List.foldl_nil]
  rw [expires]
  split
  -- A scripted connection is left at once, and there is nothing to leave afterwards.
  · have left := (freed_leave without kept single listening awaits.waits reads).givesUp now
    generalize (closed.leave handler).settle now = later at left
    have gone : handler ∉ later.handlers := fun there =>
      coherent.handled_unqueued handled (left.anew handler there).1
    have stays : later.reported.leaveExpired now handler = later.reported :=
      if_neg (mt List.contains_iff_mem.mp gone)
    rw [stays]
    exact left.reported.reported
  · have reported : closed.reported.Coherent := kept.elsewhere closed.waiters [] [] closed.listening
    have single : closed.reported.Looped :=
      single.still rfl rfl single.repeating (fun _ handed => handed) rfl rfl
    have leaves : closed.reported.leaveExpired now handler =
        (closed.reported.leave handler).settle now :=
      if_pos (List.contains_iff_mem.mpr reads)
    have left := freed_leave without.reported reported single listening awaits.waits reads
    rw [leaves]
    exact (left.givesUp now).reported

omit [Outlet σ] in
theorem records_leave (server : Server σ) (handler : Handler) :
    server.records <+: (server.leave handler).records := by
  simp only [leave, await]
  split
  · split
    · exact List.prefix_rfl
    · exact List.prefix_append _ _
  · exact List.prefix_rfl

theorem records_perform (server : Server σ) {move : Move} (own : move.isOwn now) :
    server.records <+: (server.perform move).records := by
  cases move with
  | hand moment =>
      simp only [perform, handFirst]
      split
      next => exact List.prefix_append _ _
      next => exact List.prefix_rfl
  | consume moment id bytes =>
      simp only [perform, consume_eq]
      exact List.prefix_append _ _
  | conclude id ending => exact (List.prefix_append _ _).trans (List.prefix_append _ _)
  | giveUp moment id => exact (List.prefix_append _ _).trans (List.prefix_append _ _)
  | leave handler => exact server.records_leave handler
  | _ => exact own.elim

theorem Works.records (works : server.Works now other) : server.records <+: other.records := by
  refine works.keeps (fun later => server.records <+: later.records) ?_ List.prefix_rfl
  exact fun before move own _ begins => begins.trans (before.records_perform own)

theorem idleRecord_mem_expire (server : Server σ) (now : Rat) (handler : Handler) :
    server.idleRecord handler.connection ∈ (server.expire now handler).records := by
  have noted : server.idleRecord handler.connection ∈
      (server.dismiss handler.connection (server.idleRecord handler.connection)).records :=
    List.mem_append_left _ (List.mem_append_right _ (List.mem_singleton.mpr rfl))
  simp only [expire]
  split
  · split
    · exact (works_settle _ now).records.subset ((records_leave _ handler).subset noted)
    · exact noted
  · exact noted

end SteeringChannel.Server
