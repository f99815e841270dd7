import SteeringChannel.Proofs.Server.Availability
import SteeringChannel.Proofs.Server.Expiry
import SteeringChannel.Proofs.Server.Mirror

/-!
Probes in the line of a server that one loop serves. The loop is done with a probe as soon as it
comes to it, so between the operations nothing is left of the probes but those that still wait
behind a client.
-/

namespace SteeringChannel.Server

variable {σ : Type} {alike : Option σ → Option σ → Prop} {number : Nat → Nat}
  {probes : List Nat} {server other : Server σ} {now : Rat}

theorem Waiter.handler?_renumber (waiter : Waiter) (now : Rat) (id : Nat) :
    waiter.handler? now (number id) = (waiter.handler? now id).map (Handler.renumber number) := by
  obtain ⟨task, duty⟩ := waiter
  cases duty <;> rfl

section Clients

variable (mirrors : Mirrors alike number probes server other)
include mirrors

theorem Mirrors.queue_eq {head : Nat} {rest : List Nat} (line : other.queue = head :: rest)
    (client : head ∉ probes) : ∃ id others, server.queue = id :: others ∧ head = number id ∧
      rest.filter (· ∉ probes) = others.map number := by
  have queue := mirrors.queue
  rw [line, List.filter_cons_of_pos (by simpa using client)] at queue
  obtain ⟨id, others, shape, same, rest⟩ := List.map_eq_cons_iff.mp queue.symm
  exact ⟨id, others, shape, same.symm, rest.symm⟩

theorem Mirrors.handFirst {head : Nat} {rest : List Nat} (line : other.queue = head :: rest)
    (client : head ∉ probes) (now : Rat) :
    Mirrors alike number probes (server.handFirst now) (other.handFirst now) := by
  obtain ⟨id, others, queue, rfl, rest⟩ := mirrors.queue_eq line client
  cases waiters : server.waiters with
  | nil =>
      have idle : other.waiters = [] := mirrors.waiters.trans waiters
      simp only [Server.handFirst]
      rw [waiters, idle, queue, line]
      exact mirrors
  | cons waiter more =>
      have waits : other.waiters = waiter :: more := mirrors.waiters.trans waiters
      rw [handFirst_eq queue waiters, handFirst_eq line waits]
      refine { mirrors.update id (Connection.blind_mark .handed) with
        queue := rest, active := rfl, waiters := rfl, handlers := ?_, queued := ?_ }
      · change other.handlers ++ (waiter.handler? now (number id)).toList =
          (server.handlers ++ (waiter.handler? now id).toList).map _
        rw [List.map_append, mirrors.handlers, Waiter.handler?_renumber, Option.toList_map]
      · intro waiting member
        exact mirrors.queued waiting (line ▸ List.mem_cons_of_mem _ member)

theorem Mirrors.settleFirst_client [Outlet σ] (lasting : Lasting alike) {head : Nat}
    {rest : List Nat} (line : other.queue = head :: rest) (client : head ∉ probes) (now : Rat) :
    Mirrors alike number probes (server.settleFirst now) (other.settleFirst now) := by
  have hands := mirrors.handFirst line client now
  obtain ⟨id, others, queue, rfl, _⟩ := mirrors.queue_eq line client
  simp only [Server.settleFirst]
  rw [mirrors.waiters, queue, line]
  cases server.waiters with
  | nil => exact mirrors
  | cons waiter more => exact hands.readIfHandled lasting now id

end Clients

structure Resumes (task : Nat) (later : Server σ) : Prop where
  active : later.active = none
  waiters : later.waiters = [⟨task, .serve⟩]
  handlers : later.handlers = []

theorem Resembles.endHandling (resembles : Resembles alike number probes server other) {task probe : Nat}
    (member : probe ∈ probes) (listening : other.isListening = true)
    (active : other.active = some probe) (waiters : other.waiters = [])
    (handlers : other.handlers = [⟨task, true, probe, now⟩]) (record : Journal.Record) :
    let later := other.endHandling ⟨task, true, probe, now⟩ record
    Resembles alike number probes server later ∧ Resumes task later := by
  have closed : Resembles alike number probes server (other.dismiss probe record) :=
    { resembles.aside member Connection.close_id
        (fun connection unread => (connection.close_unread).trans unread)
        Connection.close_ending with }
  have released : Resembles alike number probes server ((other.dismiss probe record).release probe) :=
    { closed.aside member (fun connection => connection.mark_id .handled)
        (fun _ unread => unread) (fun _ => rfl) with }
  have leaves : other.endHandling ⟨task, true, probe, now⟩ record =
      { (other.dismiss probe record).release probe with
        waiters := other.waiters ++ [⟨task, .serve⟩] } := leave_repeats rfl listening
  rw [leaves]
  refine ⟨{ released with }, ?_, ?_, ?_⟩
  · exact if_pos active
  · rw [waiters]
    rfl
  · change other.handlers.filter (fun handler => handler.connection != probe) = []
    simp [handlers]

theorem Resembles.settleFirst_probe [Outlet σ] (resembles : Resembles alike number probes server other)
    {task probe : Nat} {rest : List Nat} (line : other.queue = probe :: rest)
    (member : probe ∈ probes) (listening : other.isListening = true)
    (waiters : other.waiters = [⟨task, .serve⟩]) (handlers : other.handlers = []) (now : Rat) :
    Resembles alike number probes server (other.settleFirst now) ∧
      Resumes task (other.settleFirst now) := by
  let handed : Server σ :=
    { other.hand now ⟨task, .serve⟩ probe with queue := rest, waiters := [] }
  have hands : other.handFirst now = handed := handFirst_eq line waiters now
  have reads : handed.handlers = [⟨task, true, probe, now⟩] := by
    simp [handed, hand, Waiter.handler?, handlers]
  have unseen : Resembles alike number probes server handed := by
    refine { resembles.aside member (fun connection => connection.mark_id .handed)
      (fun _ unread => unread) (fun _ => rfl) with queue := ?_ }
    rw [← resembles.queue, line, List.filter_cons_of_neg (by simpa using member)]
  have goes : other.settleFirst now = handed.read now ⟨task, true, probe, now⟩ := by
    simp only [settleFirst]
    rw [line, waiters]
    simp [hands, readIfHandled, handler?, reads]
  obtain ⟨connection, present, same⟩ := List.mem_map.mp (unseen.known probe member)
  obtain ⟨found, there⟩ : ∃ found, handed.connection? probe = some found :=
    Option.isSome_iff_exists.mp (List.find?_isSome.mpr ⟨connection, present, by simp [same]⟩)
  obtain ⟨unread, ending⟩ := unseen.ended found (handed.mem_of_connection? there)
    (handed.id_of_connection? there ▸ member)
  have reading : handed.connection? (Handler.mk task true probe now).connection = some found := there
  rw [goes]
  rcases read_cases now reading with ⟨_, shape⟩ | ⟨_, _, _, shape⟩ | ⟨_, lasts, _⟩
  · rw [shape]
    exact unseen.endHandling member listening rfl rfl reads _
  · rw [shape, unread]
    have consumed : Resembles alike number probes server (handed.consume now probe []) := by
      rw [consume_eq]
      exact { unseen.aside member (fun connection => connection.take_id 0)
        (fun _ unread => by simp [Connection.take, unread]) (fun _ => rfl) with }
    exact consumed.endHandling member listening rfl rfl reads _
  · cases ending.symm.trans lasts

def Solo [Outlet σ] (server : Server σ) : Prop :=
  ∃ first moves, first.Fresh ∧ Run alone first moves server

namespace Solo

variable [Outlet σ] (solo : server.Solo)
include solo

theorem coherent : server.Coherent := by
  obtain ⟨first, moves, fresh, run⟩ := solo
  exact run.coherent fresh.coherent

theorem looped : server.Looped := by
  obtain ⟨first, moves, fresh, run⟩ := solo
  exact run.looped fresh.coherent fresh.looped

theorem one (move : Move) (fits : server.Fits alone move) : (server.perform move).Solo := by
  obtain ⟨first, moves, fresh, run⟩ := solo
  exact ⟨first, _, fresh, Run.move move run fits⟩

theorem works (works : server.Works now other) : other.Solo := by
  obtain ⟨first, moves, fresh, run⟩ := solo
  obtain ⟨more, rest⟩ := works.alone
  exact ⟨first, _, fresh, run.trans rest⟩

theorem waits {waiter : Waiter} {others : List Waiter} (waiters : server.waiters = waiter :: others) :
    ∃ task, server.waiters = [⟨task, .serve⟩] ∧ server.handlers = [] := by
  have single := solo.looped.single
  rw [waiters, List.length_cons] at single
  have alone : others = [] := List.length_eq_zero_iff.mp (by omega)
  have idle : server.handlers = [] := List.length_eq_zero_iff.mp (by omega)
  have serves := solo.looped.serving waiter (by simp [waiters])
  exact ⟨waiter.task, by rw [waiters, alone, ← serves], idle⟩

end Solo

theorem active_perform [Outlet σ] {starts : Server σ → Waiter → Prop} {move : Move}
    (fits : server.Fits starts move)
    (before : server.rejecting = false → ∀ id, server.active = some id → id ∈ server.accepted) :
    (server.perform move).rejecting = false →
      ∀ id, (server.perform move).active = some id → id ∈ (server.perform move).accepted := by
  have left (server : Server σ) (handler : Handler)
      (before : server.rejecting = false → ∀ id, server.active = some id → id ∈ server.accepted) :
      (server.leave handler).rejecting = false →
        ∀ id, (server.leave handler).active = some id → id ∈ (server.leave handler).accepted := by
    obtain ⟨waiters, records, finished, shape⟩ := server.leave_shape handler
    rw [shape]
    intro queueing id active
    refine before queueing id ?_
    replace active : (if server.active = some handler.connection then none else server.active) =
      some id := active
    split at active
    · cases active
    · exact active
  cases move with
  | await waiter =>
      obtain ⟨waiters, records, finished, shape⟩ := server.await_shape waiter
      simp only [perform, shape]
      exact before
  | arrive arrival =>
      simp only [perform, rejecting_register, active_register, accepted_register]
      intro queueing
      rw [if_neg (by simp [queueing])]
      exact before queueing
  | hand now =>
      simp only [perform, handFirst]
      split
      · intro _ id active
        exact List.mem_append_right _ (List.mem_singleton.mpr (Option.some.inj active).symm)
      · exact before
  | consume now id bytes =>
      simp only [perform, consume_eq]
      exact before
  | leave handler => exact left server handler before
  | live moment =>
      cases moment with
      | left handler => exact left (server.note _) handler before
      | closeFailed id => exact before
      | woken waiter => exact before
  | _ => exact before

theorem Solo.active_accepted [Outlet σ] (solo : server.Solo) (queueing : server.rejecting = false)
    {id : Nat} (active : server.active = some id) : id ∈ server.accepted := by
  obtain ⟨first, moves, fresh, run⟩ := solo
  have initial : first.rejecting = false → ∀ id, first.active = some id → id ∈ first.accepted := by
    rw [fresh]
    simp
  exact run.keeps (fun _ _ fits before => active_perform fits before) initial queueing id active

theorem Solo.active_eq_none [Outlet σ] (solo : server.Solo) (handlers : server.handlers = [])
    (running : server.stopped = false)
    (unqueued : ∀ id, server.active = some id → id ∉ server.queue) : server.active = none := by
  cases active : server.active with
  | none => rfl
  | some id =>
      rcases solo.coherent.activeAdmitted id active with queued | handed | discarded
      · exact absurd ((solo.coherent.queued id).mpr queued) (unqueued id active)
      · have reads := solo.looped.handled id handed
        simp [handlers] at reads
      · exact nomatch running.symm.trans (solo.coherent.discardedStopped id discarded)

theorem settle_settleFirst [Outlet σ] (server : Server σ) (now : Rat) :
    (server.settleFirst now).settle now = server.settle now := by
  by_cases calm : server.Calm
  · rw [calm.settleFirst now]
  · obtain ⟨id, rest, line⟩ := List.exists_cons_of_ne_nil (not_or.mp calm).1
    simp only [settle]
    rw [queue_settleFirst now calm, line]
    rfl

theorem Calm.settle [Outlet σ] (calm : server.Calm) (now : Rat) : server.settle now = server :=
  calm.foldl_settleFirst now server.queue

theorem Mirrors.calm (mirrors : Mirrors alike number probes server other) (calm : other.Calm) :
    server.Calm := by
  refine calm.imp (fun queue => ?_) fun waiters => mirrors.waiters.symm.trans waiters
  have line := mirrors.queue
  rw [queue] at line
  exact List.map_eq_nil_iff.mp line.symm

theorem Mirrors.settleFirst_probe [Outlet σ]
    (mirrors : Mirrors alike number probes server other) (solo : server.Solo) {probe : Nat}
    {rest : List Nat} (line : other.queue = probe :: rest) (member : probe ∈ probes)
    (waits : other.waiters ≠ []) (now : Rat) :
    Mirrors alike number probes server (other.settleFirst now) := by
  obtain ⟨waiter, others, waiters⟩ := List.exists_cons_of_ne_nil waits
  obtain ⟨task, waiters, handlers⟩ := solo.waits (mirrors.waiters.symm.trans waiters)
  obtain ⟨queueing, listening⟩ := mirrors.queued probe (by simp [line]) member
  have running : server.stopped = false := by
    have listens := mirrors.isListening.symm.trans listening
    simp only [Server.isListening, Bool.and_eq_true, Bool.not_eq_true'] at listens
    exact listens.2
  have vacant : server.active = none := by
    refine solo.active_eq_none handlers running fun id active queued => ?_
    have accepted := solo.active_accepted (mirrors.rejecting.symm.trans queueing) active
    have stood := (solo.coherent.accepted id).mp accepted
    rw [(solo.coherent.queued id).mp queued] at stood
    simp at stood
  obtain ⟨resembles, resumes⟩ := mirrors.toResembles.settleFirst_probe line member listening
    (mirrors.waiters.trans waiters) (by rw [mirrors.handlers, handlers, List.map_nil]) now
  have shorter : (other.settleFirst now).queue = rest := by
    have busy : ¬ other.Calm := not_or.mpr ⟨by simp [line], waits⟩
    rw [queue_settleFirst now busy, line, List.tail_cons]
  refine { resembles with active := ?_, waiters := ?_, handlers := ?_, queued := ?_ }
  · rw [resumes.active, vacant, Option.map_none]
  · rw [resumes.waiters, waiters]
  · rw [resumes.handlers, handlers, List.map_nil]
  · rw [shorter]
    intro id present probed
    obtain ⟨queueing, listening⟩ :=
      mirrors.queued id (line ▸ List.mem_cons_of_mem probe present) probed
    exact ⟨resembles.rejecting.trans (mirrors.rejecting.symm.trans queueing),
      resembles.isListening.trans (mirrors.isListening.symm.trans listening)⟩

theorem Mirrors.settle [Outlet σ] (mirrors : Mirrors alike number probes server other)
    (solo : server.Solo) (lasting : Lasting alike) (now : Rat) :
    Mirrors alike number probes (server.settle now) (other.settle now) := by
  generalize line : other.queue = queue
  induction queue generalizing server other with
  | nil =>
      have calm : other.Calm := Or.inl line
      rw [calm.settle now, (mirrors.calm calm).settle now]
      exact mirrors
  | cons head rest ih =>
      by_cases calm : other.Calm
      · rw [calm.settle now, (mirrors.calm calm).settle now]
        exact mirrors
      · have shorter : (other.settleFirst now).queue = rest := by
          rw [queue_settleFirst now calm, line, List.tail_cons]
        rw [← other.settle_settleFirst now]
        by_cases probe : head ∈ probes
        · exact ih (mirrors.settleFirst_probe solo line probe (not_or.mp calm).2 now) solo shorter
        · rw [← server.settle_settleFirst now]
          exact ih (mirrors.settleFirst_client lasting line probe now)
            (solo.works (server.works_settleFirst now)) shorter

theorem Mirrors.fate_eq (mirrors : Mirrors alike number probes server other) :
    other.fate = server.fate := by
  simp only [fate, mirrors.stopped, mirrors.rejecting, mirrors.active, Option.isSome_map]

theorem Mirrors.join (mirrors : Mirrors alike number probes server other)
    {first second : Connection} (same : second = first.renumber number) :
    Mirrors alike number probes { server with connections := server.connections ++ [first] }
      { other with connections := other.connections ++ [second] } := by
  have client : second.id ∉ probes := same ▸ mirrors.spares first.id
  refine { mirrors with connections := ?_, ahead := ?_, ended := ?_, known := ?_ }
  · rw [List.filter_append, mirrors.connections, List.map_append,
      List.filter_cons_of_pos (by simpa using client), List.filter_nil, same]
    rfl
  · intro later
    have further := mirrors.ahead (1 + later)
    simp only [nextId, List.length_append, List.length_singleton] at further ⊢
    rw [show server.connections.length + 1 + 1 + later =
      server.connections.length + 1 + (1 + later) by omega, further]
    omega
  · intro connection member probe
    rcases List.mem_append.mp member with before | last
    · exact mirrors.ended connection before probe
    · exact absurd (List.mem_singleton.mp last ▸ probe) client
  · intro id probe
    rw [List.map_append]
    exact List.mem_append_left _ (mirrors.known id probe)

theorem Mirrors.register (mirrors : Mirrors alike number probes server other)
    (arrival : Connection) :
    Mirrors alike number probes (server.register arrival) (other.register arrival) := by
  have next : number server.nextId = other.nextId := mirrors.ahead 0
  let mine : Connection := { arrival with id := server.nextId, standing := server.fate }
  let theirs : Connection := { arrival with id := other.nextId, standing := server.fate }
  have same : theirs = mine.renumber number := by simp [mine, theirs, Connection.renumber, next]
  have closed : theirs.close = mine.close.renumber number := by
    rw [same, Connection.blind_close.renumber]
  simp only [Server.register, mirrors.fate_eq]
  split
  · refine { mirrors.join same with queue := ?_, active := ?_, queued := ?_ }
    · have client : other.nextId ∉ probes := next ▸ mirrors.spares server.nextId
      dsimp only
      rw [List.filter_append, mirrors.queue, List.map_append,
        List.filter_cons_of_pos (by simpa using client), List.filter_nil, List.map_singleton, next]
    · dsimp only
      rw [mirrors.rejecting, mirrors.active]
      split
      · exact congrArg some next.symm
      · rfl
    · intro id member probe
      rcases List.mem_append.mp member with before | last
      · exact mirrors.queued id before probe
      · have client := mirrors.spares server.nextId
        rw [next, ← List.mem_singleton.mp last] at client
        exact absurd probe client
  · exact { mirrors.join closed with }

theorem Mirrors.arrive [Outlet σ] (mirrors : Mirrors alike number probes server other)
    (solo : server.Solo) (lasting : Lasting alike) (now : Rat) {arrival : Connection}
    (untaken : arrival.taken = []) (fresh : arrival.closes = 0) :
    Mirrors alike number probes (server.arrive now arrival) (other.arrive now arrival) := by
  have registered := mirrors.register arrival
  simp only [Server.arrive, mirrors.fate_eq]
  split
  · exact registered.settle (solo.one (.arrive arrival) ⟨untaken, fresh⟩) lasting now
  · exact registered

/-! The arrival of a probe. -/

def skip (number : Nat → Nat) (next id : Nat) : Nat := number (if id < next then id else id + 1)

theorem skip_before {next id : Nat} (before : id < next) : skip number next id = number id :=
  congrArg number (if_pos before)

theorem skip_ahead (next later : Nat) : skip number next (next + later) = number (next + (later + 1)) :=
  congrArg number (if_neg (by omega))

theorem skip_cases (number : Nat → Nat) (next id : Nat) :
    ∃ other, other ≠ next ∧ skip number next id = number other := by
  by_cases before : id < next
  · exact ⟨id, Nat.ne_of_lt before, skip_before before⟩
  · exact ⟨id + 1, by omega, congrArg number (if_neg before)⟩

theorem skip_injective (injective : ∀ first second, number first = number second → first = second)
    (next first second : Nat) (same : skip number next first = skip number next second) :
    first = second := by
  have equal := injective _ _ same
  split at equal <;> split at equal <;> omega

theorem Solo.renumber [Outlet σ] (solo : server.Solo) :
    server.connections.map (Connection.renumber (skip number server.nextId)) =
        server.connections.map (Connection.renumber number) ∧
      server.queue.map (skip number server.nextId) = server.queue.map number ∧
      server.handlers.map (Handler.renumber (skip number server.nextId)) =
        server.handlers.map (Handler.renumber number) ∧
      server.active.map (skip number server.nextId) = server.active.map number := by
  have coherent := solo.coherent
  refine ⟨?_, ?_, ?_, ?_⟩
  · refine List.map_congr_left fun connection member => ?_
    have earlier := (coherent.numbered.bounds (coherent.numbered.connection?_of_mem member)).2
    simp [Connection.renumber, skip_before earlier]
  · refine List.map_congr_left fun id member => skip_before ?_
    exact coherent.lt_nextId (List.mem_append_right _ member)
  · refine List.map_congr_left fun handler member => ?_
    have earlier := coherent.numbered.lt_nextId
      (coherent.handling _ (List.mem_map_of_mem member))
    simp [Handler.renumber, skip_before earlier]
  · refine Option.map_congr fun id active => skip_before ?_
    rcases coherent.activeAdmitted id active with stands | stands | stands <;>
      exact coherent.numbered.lt_nextId stands

theorem Resembles.unused (resembles : Resembles alike number probes server other)
    {line ids : List Nat} (shape : line.filter (· ∉ probes) = ids.map number)
    (earlier : ∀ id ∈ ids, id < server.nextId) : other.nextId ∉ line := by
  intro member
  have next : number server.nextId = other.nextId := resembles.ahead 0
  have client : other.nextId ∉ probes := next ▸ resembles.spares server.nextId
  have listed : other.nextId ∈ line.filter (· ∉ probes) :=
    List.mem_filter.mpr ⟨member, by simpa using client⟩
  rw [shape, ← next] at listed
  obtain ⟨id, known, same⟩ := List.mem_map.mp listed
  exact absurd (resembles.injective _ _ same) (Nat.ne_of_lt (earlier id known))

theorem filter_unused {α : Type} {items : List α} {view : α → Nat} {next : Nat}
    (unused : next ∉ items.map view) (probes : List Nat) :
    items.filter (fun item => view item ∉ next :: probes) =
      items.filter fun item => view item ∉ probes := by
  refine List.filter_congr fun item member => ?_
  have differs : view item ≠ next := fun same => unused (same ▸ List.mem_map_of_mem member)
  simp [differs]

theorem Mirrors.pass [Outlet σ] (mirrors : Mirrors alike number probes server other)
    (solo : server.Solo) {connection : Connection} (numbered : connection.id = other.nextId)
    (unread : connection.unread = []) (ending : connection.ending = some .finished) :
    Mirrors alike (skip number server.nextId) (other.nextId :: probes) server
      { other with connections := other.connections ++ [connection] } := by
  obtain ⟨connections, queue, handlers, active⟩ := @Solo.renumber _ number server _ solo
  have coherent := solo.coherent
  have unseen : other.nextId ∉ other.connections.map Connection.id := by
    refine @Resembles.unused _ _ _ _ _ _ mirrors.toResembles _ (server.connections.map Connection.id) ?_ ?_
    · have shape := congrArg (List.map Connection.id) mirrors.connections
      rw [List.map_map] at shape
      rw [List.filter_map, List.map_map]
      exact shape
    · intro id member
      obtain ⟨connection, present, rfl⟩ := List.mem_map.mp member
      exact (coherent.numbered.bounds (coherent.numbered.connection?_of_mem present)).2
  have unqueued : other.nextId ∉ other.queue :=
    mirrors.toResembles.unused mirrors.queue fun id member =>
      coherent.lt_nextId (List.mem_append_right _ member)
  have next : number server.nextId = other.nextId := mirrors.ahead 0
  refine { mirrors with connections := ?_, queue := ?_, active := ?_, handlers := ?_, queued := ?_
                        injective := ?_, spares := ?_, ahead := ?_, ended := ?_, known := ?_ }
  · rw [connections, ← mirrors.connections, List.filter_append, filter_unused unseen,
      List.filter_cons_of_neg (by simp [numbered]), List.filter_nil, List.append_nil]
  · rw [queue, ← mirrors.queue]
    exact filter_unused (by rwa [List.map_id']) probes
  · exact skip_injective mirrors.injective server.nextId
  · intro id
    obtain ⟨shifted, differs, same⟩ := skip_cases number server.nextId id
    rw [same, List.mem_cons, not_or, ← next]
    exact ⟨fun equal => differs (mirrors.injective _ _ equal), mirrors.spares shifted⟩
  · intro later
    rw [skip_ahead, mirrors.ahead]
    simp only [nextId, List.length_append, List.length_singleton]
    omega
  · intro before member probe
    rcases List.mem_append.mp member with present | last
    · refine mirrors.ended before present ((List.mem_cons.mp probe).resolve_left fun same => ?_)
      exact unseen (same ▸ List.mem_map_of_mem present)
    · rw [List.mem_singleton.mp last]
      exact ⟨unread, ending⟩
  · intro id probe
    rw [List.map_append, List.mem_append]
    refine (List.mem_cons.mp probe).symm.imp (mirrors.known id) fun same => ?_
    simp [same, numbered]
  · exact mirrors.active.trans active.symm
  · exact mirrors.handlers.trans handlers.symm
  · intro id member probe
    refine mirrors.queued id member ((List.mem_cons.mp probe).resolve_left fun same => ?_)
    exact unqueued (same ▸ member)

def probe : Connection := { id := 0, ending := some .finished }

/-- A server that has settled and that one loop serves, as long as it has not been stopped. -/
structure Tended [Outlet σ] (server : Server σ) : Prop where
  solo : server.Solo
  settled : server.Settled
  loop : server.stopped = false →
    server.isListening = true ∧ (server.waiters ≠ [] ∨ server.handlers ≠ [])

theorem Tended.waits [Outlet σ] (tended : server.Tended) (running : server.stopped = false)
    (rejecting : server.rejecting = true) (vacant : server.active = none) :
    ∃ task, server.waiters = [⟨task, .serve⟩] ∧ server.handlers = [] := by
  have handlers : server.handlers = [] := by
    refine List.eq_nil_iff_forall_not_mem.mpr fun handler reads => ?_
    have opened := ((tended.settled.attentive.awaits handler reads).resolve_left id).isOpen
    obtain ⟨first, moves, fresh, run⟩ := tended.solo
    have slot := run.exclusive fresh.coherent (run.policy.1.symm.trans rejecting) fresh.exclusive
      handler.connection (Or.inl opened)
    simp [vacant] at slot
  have waits := (tended.loop running).2.resolve_right (not_not_intro handlers)
  obtain ⟨waiter, others, waiters⟩ := List.exists_cons_of_ne_nil waits
  exact tended.solo.waits waiters

theorem Mirrors.probe [Outlet σ] (mirrors : Mirrors alike number probes server other)
    (tended : server.Tended) (calm : other.Calm) (lasting : Lasting alike) (now : Rat) :
    Mirrors alike (skip number server.nextId) (other.nextId :: probes) server
      (other.arrive now probe) := by
  let mine : Connection := { Server.probe with id := other.nextId, standing := other.fate }
  have joined := mirrors.pass tended.solo (show mine.id = other.nextId from rfl) rfl rfl
  have closed := mirrors.pass tended.solo (show mine.close.id = other.nextId from mine.close_id)
    mine.close_unread mine.close_ending
  let registered := other.register Server.probe
  have refused (away : other.fate ≠ .queued) :
      Mirrors alike (skip number server.nextId) (other.nextId :: probes) server
        (other.arrive now Server.probe) := by
    simp only [Server.arrive, Server.register, if_neg away]
    exact { closed with }
  rcases server.fate_cases with ⟨fate, _⟩ | ⟨fate, _⟩ | ⟨fate, running, free⟩
  · exact refused (by simp [mirrors.fate_eq, fate])
  · exact refused (by simp [mirrors.fate_eq, fate])
  · have admitted : other.fate = .queued := mirrors.fate_eq.trans fate
    have arrives : other.arrive now Server.probe = registered.settle now := by
      simp only [Server.arrive, admitted, if_true, registered]
    have shape : registered = { other with
        connections := other.connections ++ [mine]
        queue := other.queue ++ [other.nextId]
        active := if other.rejecting then some other.nextId else other.active } := by
      simp only [registered, Server.register, admitted, if_true, mine]
    have queue : (other.queue ++ [other.nextId]).filter (· ∉ other.nextId :: probes) =
        server.queue.map (skip number server.nextId) := by
      rw [List.filter_append, List.filter_cons_of_neg (by simp), List.filter_nil, List.append_nil]
      exact joined.queue
    rw [arrives]
    cases rejecting : server.rejecting with
    | false =>
        have queueing : other.rejecting = false := mirrors.rejecting.trans rejecting
        have listening : other.isListening = true :=
          mirrors.isListening.trans (tended.loop running).1
        have mirrored : Mirrors alike (skip number server.nextId) (other.nextId :: probes) server
            registered := by
          rw [shape]
          refine { joined with queue := queue, active := ?_, queued := ?_ }
          · simpa [queueing] using joined.active
          · exact fun _ _ _ => ⟨queueing, listening⟩
        have settles := mirrored.settle tended.solo lasting now
        rwa [tended.settled.calm.settle now] at settles
    | true =>
        have vacant : server.active = none := free.resolve_left (by simp [rejecting])
        obtain ⟨task, waiters, handlers⟩ := tended.waits running rejecting vacant
        have waits : other.waiters = [⟨task, .serve⟩] := mirrors.waiters.trans waiters
        have line : registered.queue = [other.nextId] := by
          rw [shape, calm.resolve_right (by simp [waits])]
          rfl
        have unseen : Resembles alike (skip number server.nextId) (other.nextId :: probes) server
            registered := by
          rw [shape]
          exact { joined with queue := queue }
        have listening : registered.isListening = true :=
          unseen.isListening.trans (tended.loop running).1
        obtain ⟨resembles, resumes⟩ := unseen.settleFirst_probe line List.mem_cons_self listening
          (by rw [shape, ← waits]) (by rw [shape, mirrors.handlers, handlers, List.map_nil]) now
        have settles : registered.settle now = registered.settleFirst now := by
          change registered.queue.foldl (fun server _ => server.settleFirst now) registered = _
          rw [line, List.foldl_cons, List.foldl_nil]
        have empty : (registered.settleFirst now).queue = [] := by
          have busy : ¬ registered.Calm := by simp [Calm, shape, waits]
          rw [queue_settleFirst now busy, line, List.tail_cons]
        rw [settles]
        refine { resembles with active := ?_, waiters := ?_, handlers := ?_, queued := ?_ }
        · rw [resumes.active, vacant, Option.map_none]
        · rw [resumes.waiters, waiters]
        · rw [resumes.handlers, handlers, List.map_nil]
        · simp [empty]

end SteeringChannel.Server
