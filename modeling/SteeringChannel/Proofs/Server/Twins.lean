import SteeringChannel.Proofs.Server.Lag

/-!
Two servers, each served by one loop, that differ by probes only: every operation keeps them so. A
client that withdraws and goes on at once leaves them behind what they will do, and they agree
again as soon as they have settled.
-/

namespace SteeringChannel.Server

variable {σ : Type} [Outlet σ] {alike : Option σ → Option σ → Prop} {number : Nat → Nat}
  {probes : List Nat} {server other : Server σ} {now : Rat}

theorem Run.nextId_le {starts : Server σ → Waiter → Prop} {moves : List Move}
    (run : Run starts server moves other) : server.nextId ≤ other.nextId := by
  induction run with
  | still => exact Nat.le_refl _
  | @move moves middle next run fits ih =>
      refine ih.trans ?_
      by_cases comes : ∃ arrival, next = .arrive arrival
      · obtain ⟨arrival, rfl⟩ := comes
        exact (Nat.le_succ _).trans (middle.nextId_register arrival).ge
      · exact (middle.nextId_perform fun arrival same => comes ⟨arrival, same⟩).ge

theorem nextId_settle (server : Server σ) (now : Rat) :
    (server.settle now).nextId = server.nextId := by
  simp only [settle]
  generalize server.queue = steps
  induction steps generalizing server with
  | nil => rfl
  | cons _ rest ih => exact (ih (server.settleFirst now)).trans (nextId_settleFirst server now)

theorem nextId_arrive (server : Server σ) (now : Rat) (arrival : Connection) :
    (server.arrive now arrival).nextId = server.nextId + 1 := by
  simp only [arrive]
  split
  · rw [nextId_settle, nextId_register]
  · rw [nextId_register]

theorem Solo.reported (solo : server.Solo) : server.reported.Solo := solo.one .report trivial

structure Steady (server : Server σ) : Prop where
  coherent : server.Coherent
  settled : server.Settled

def Operation.isWhole : Operation → Prop
  | .start _ _ | .withdraw _ => False
  | .arrive arrival => arrival.taken = [] ∧ arrival.closes = 0
  | _ => True

namespace Steady

variable (steady : server.Steady)
include steady

theorem after {moves : List Move} (run : Run alone server moves other) (settled : other.Settled) :
    other.Steady :=
  ⟨run.coherent steady.coherent, settled⟩

omit [Outlet σ] in
theorem reported : server.reported.Steady :=
  ⟨{ steady.coherent with }, steady.settled.reported⟩

theorem operate (now : Rat) {operation : Operation} (whole : operation.isWhole) :
    (∃ moves, Run alone server moves (server.operate now operation)) ∧
      (server.operate now operation).Settled := by
  have coherent := steady.coherent
  have settled := steady.settled
  have works (goes : operation ≠ .stop)
      (opens : ∀ move ∈ server.opening operation, server.Fits alone move)
      (single : (server.opening operation).length ≤ 1) :
      ∃ moves, Run alone server moves (server.operate now operation) := by
    obtain ⟨moves, rest⟩ := (server.works_operate now goes).alone
    cases opening : server.opening operation with
    | nil =>
        rw [opening] at rest
        exact ⟨moves, rest⟩
    | cons move others =>
        rw [opening] at rest opens single
        obtain rfl : others = [] := List.length_eq_zero_iff.mp (by simpa using single)
        exact ⟨_, (Run.one move (opens move List.mem_cons_self)).trans rest⟩
  cases operation with
  | listen =>
      refine ⟨⟨_, Run.one .listen trivial⟩, ⟨?_, settled.calm⟩⟩
      exact settled.attentive.elsewhere (fun _ present => present)
        (fun _ _ awaits => awaits.elsewhere rfl rfl rfl rfl) rfl rfl
  | stop =>
      obtain ⟨run, rests⟩ := settled.run_stop alone coherent
      exact ⟨⟨_, run⟩, rests⟩
  | start task duty => exact whole.elim
  | arrive arrival =>
      refine ⟨works (by simp) ?_ (by simp [opening]), ?_⟩
      · exact fun move brings => List.mem_singleton.mp brings ▸ whole
      · exact settled.arrive coherent now whole.1 whole.2
  | deliver id bytes =>
      refine ⟨works (by simp) ?_ ?_, settled.deliver coherent now id bytes⟩
      · simp only [opening]
        split <;> simp [Fits]
      · simp only [opening]
        split <;> simp
  | hangUp id =>
      refine ⟨works (by simp) ?_ ?_, settled.hangUp coherent now id .finished⟩
      · simp only [opening]
        split <;> simp [Fits]
      · simp only [opening]
        split <;> simp
  | withdraw id => exact whole.elim
  | settle =>
      exact ⟨works (by simp) (by simp [opening]) (by simp [opening]),
        resting_settle settled.attentive coherent now⟩

theorem advance {due : List Handler} (late : due.Perm (server.handlers.filter (server.isDue now))) :
    (∃ moves, Run alone server moves ((server.expireAll now due).leaveAll now due)) ∧
      ((server.expireAll now due).leaveAll now due).Settled := by
  have coherent := steady.coherent
  have member (handler : Handler) (expires : handler ∈ due) :
      handler ∈ server.handlers ∧ server.isDue now handler = true :=
    List.mem_filter.mp (late.subset expires)
  have distinct : due.Nodup :=
    late.nodup_iff.mpr (coherent.distinct.of_map.filter _)
  obtain ⟨reaches, settled⟩ := steady.settled.advance coherent
    (fun handler expires => (member handler expires).1)
    (fun handler expires => (member handler expires).2) distinct
  obtain ⟨moves, run, _⟩ := reaches.run alone
  exact ⟨⟨moves, run⟩, settled⟩

end Steady

def Operation.renumber (number : Nat → Nat) : Operation → Operation
  | .deliver id bytes => .deliver (number id) bytes
  | .hangUp id => .hangUp (number id)
  | .withdraw id => .withdraw (number id)
  | operation => operation

theorem Mirrors.operate (mirrors : Mirrors alike number probes server other)
    (solo : server.Solo) (lasting : Lasting alike) (now : Rat) {operation : Operation}
    (whole : operation.isWhole) :
    Mirrors alike number probes (server.operate now operation)
      (other.operate now (operation.renumber number)) := by
  cases operation with
  | listen => exact mirrors.listen
  | stop => exact mirrors.stop solo
  | start task duty => exact whole.elim
  | arrive arrival => exact mirrors.arrive solo lasting now whole.1 whole.2
  | deliver id bytes => exact mirrors.deliver solo lasting now id bytes
  | hangUp id => exact mirrors.hangUp solo lasting now id
  | withdraw id => exact whole.elim
  | settle => exact mirrors.settle solo lasting now

structure Twins (alike : Option σ → Option σ → Prop) (number : Nat → Nat) (probes : List Nat)
    (server other : Server σ) : Prop where
  mirrors : Mirrors alike number probes server other
  solo : server.Solo
  first : server.Steady
  second : other.Steady

theorem Twins.operate (twins : Twins alike number probes server other) (lasting : Lasting alike)
    (now : Rat) {operation : Operation} (whole : operation.isWhole) :
    Twins alike number probes (server.operate now operation).reported
      (other.operate now (operation.renumber number)).reported := by
  have again : (operation.renumber number).isWhole := by
    cases operation <;> exact whole
  obtain ⟨⟨_, mine⟩, settled⟩ := twins.first.operate now whole
  obtain ⟨⟨_, theirs⟩, rests⟩ := twins.second.operate now again
  exact ⟨(twins.mirrors.operate twins.solo lasting now whole).reported,
    (twins.solo.after mine).reported, (twins.first.after mine settled).reported,
    (twins.second.after theirs rests).reported⟩

omit [Outlet σ] in
theorem Mirrors.due (mirrors : Mirrors alike number probes server other) (now : Rat) :
    other.handlers.filter (other.isDue now) =
      (server.handlers.filter (server.isDue now)).map (Handler.renumber number) := by
  rw [mirrors.handlers, List.filter_map]
  refine congrArg (List.map _) (congrArg (List.filter · server.handlers) (funext ?_))
  exact fun handler => isDue_congr mirrors.timeout now handler

theorem Twins.advance (twins : Twins alike number probes server other) (lasting : Lasting alike)
    {due later : List Handler} (late : due.Perm (server.handlers.filter (server.isDue now)))
    (again : later.Perm (other.handlers.filter (other.isDue now))) :
    Twins alike number probes ((server.expireAll now due).leaveAll now due)
      ((other.expireAll now later).leaveAll now later) := by
  have few : due.length ≤ 1 := by
    have single := twins.solo.looped.single
    have fewer := List.length_filter_le (server.isDue now) server.handlers
    rw [late.length_eq]
    omega
  have same : later = due.map (Handler.renumber number) := by
    have perm := again.trans ((List.Perm.of_eq (twins.mirrors.due now)).trans (late.map _).symm)
    cases due with
    | nil => exact perm.eq_nil
    | cons handler rest =>
        obtain rfl : rest = [] := List.length_eq_zero_iff.mp (by simpa using few)
        exact List.perm_singleton.mp perm
  obtain ⟨⟨_, mine⟩, settled⟩ := twins.first.advance late
  obtain ⟨⟨_, theirs⟩, rests⟩ := twins.second.advance again
  refine ⟨?_, twins.solo.after mine, twins.first.after mine settled,
    twins.second.after theirs rests⟩
  exact same ▸ twins.mirrors.advance twins.solo lasting late

theorem Twins.next : ∀ server later : Server σ, Twins alike number probes server later →
    number server.nextId = later.nextId :=
  fun _ _ twins => twins.mirrors.ahead 0

theorem Twins.arrives (lasting : Lasting alike) (now : Rat) : ∀ server later : Server σ,
    Twins alike number probes server later →
      Twins alike number probes (server.arrive now { id := 0 }).reported
        (later.arrive now { id := 0 }).reported :=
  fun _ _ twins => twins.operate lasting now
    (show (Operation.arrive { id := 0 }).isWhole from ⟨rfl, rfl⟩)

structure Trails (alike : Option σ → Option σ → Prop) (number : Nat → Nat) (probes : List Nat)
    (now : Rat) (server other : Server σ) : Prop where
  solo : server.Solo
  second : other.Coherent
  attentive : server.Attentive fun _ => False
  attends : other.Attentive fun _ => False
  next : number server.nextId = other.nextId
  settles : Mirrors alike number probes (server.settle now) (other.settle now)
  arrives : ∀ arrival : Connection, arrival.taken = [] → arrival.closes = 0 →
    Mirrors alike number probes (server.arrive now arrival) (other.arrive now arrival)

omit [Outlet σ] in
theorem Attentive.reported (attentive : server.Attentive fun _ => False) :
    server.reported.Attentive fun _ => False :=
  attentive.elsewhere (fun _ present => present) (fun _ _ awaits => awaits.elsewhere rfl rfl rfl rfl)
    rfl rfl

theorem Mirrors.trails (mirrors : Mirrors alike number probes server other)
    (solo : server.Solo) (second : other.Coherent) (attentive : server.Attentive fun _ => False)
    (attends : other.Attentive fun _ => False) (lasting : Lasting alike) (now : Rat) :
    Trails alike number probes now server other where
  solo := solo
  second := second
  attentive := attentive
  attends := attends
  next := mirrors.ahead 0
  settles := mirrors.settle solo lasting now
  arrives _ untaken fresh := mirrors.arrive solo lasting now untaken fresh

theorem Twins.trails (twins : Twins alike number probes server other) (lasting : Lasting alike)
    (now : Rat) : Trails alike number probes now server other :=
  twins.mirrors.trails twins.solo twins.second.coherent twins.first.settled.attentive
    twins.second.settled.attentive lasting now

namespace Trails

variable (trails : Trails alike number probes now server other)
include trails

theorem reported : Trails alike number probes now server.reported other.reported where
  solo := trails.solo.reported
  second := { trails.second with }
  attentive := trails.attentive.reported
  attends := trails.attends.reported
  next := trails.next
  settles := trails.settles.replace ((same_reported server).settle now)
    ((same_reported other).settle now)
  arrives arrival untaken fresh := (trails.arrives arrival untaken fresh).replace
    ((same_reported server).arrive now arrival) ((same_reported other).arrive now arrival)

theorem settle : Twins alike number probes (server.settle now).reported
    (other.settle now).reported := by
  have settled := resting_settle trails.attentive trails.solo.coherent now
  have rests := resting_settle trails.attends trails.second now
  have goes := trails.solo.works (works_settle server now)
  obtain ⟨_, run⟩ := (works_settle other now).alone
  have first : (server.settle now).Steady := ⟨goes.coherent, settled⟩
  have second : (other.settle now).Steady := ⟨run.coherent trails.second, rests⟩
  exact ⟨trails.settles.reported, goes.reported, first.reported, second.reported⟩

theorem arrive (lasting : Lasting alike) {arrival : Connection} (untaken : arrival.taken = [])
    (fresh : arrival.closes = 0) :
    Trails alike number probes now (server.arrive now arrival) (other.arrive now arrival) := by
  have comes {server : Server σ} (coherent : server.Coherent)
      (attentive : server.Attentive fun _ => False) :
      (∃ moves, Run alone server moves (server.arrive now arrival)) ∧
        (server.arrive now arrival).Attentive fun _ => False := by
    have registered := attentive.register coherent.numbered arrival
    have run : Run alone server _ (server.register arrival) :=
      Run.one (.arrive arrival) ⟨untaken, fresh⟩
    simp only [Server.arrive]
    split
    · obtain ⟨_, rest⟩ := (works_settle (server.register arrival) now).alone
      exact ⟨⟨_, run.trans rest⟩, registered.settle (run.coherent coherent) now⟩
    · exact ⟨⟨_, run⟩, registered⟩
  obtain ⟨⟨_, mine⟩, attentive⟩ := comes trails.solo.coherent trails.attentive
  obtain ⟨⟨_, theirs⟩, attends⟩ := comes trails.second trails.attends
  exact (trails.arrives arrival untaken fresh).trails (trails.solo.after mine)
    (theirs.coherent trails.second) attentive attends lasting now

end Trails

theorem Mirrors.trails_settleFirst (mirrors : Mirrors alike number probes server other)
    (solo : server.Solo) (second : other.Coherent) (attentive : server.Attentive fun _ => False)
    (attends : other.Attentive fun _ => False) (lasting : Lasting alike) (now : Rat) :
    Trails alike number probes now (server.settleFirst now) (other.settleFirst now) where
  solo := solo.works (server.works_settleFirst now)
  second := by
    obtain ⟨_, run⟩ := (other.works_settleFirst now).alone
    exact run.coherent second
  attentive := attentive.settleFirst solo.coherent now
  attends := attends.settleFirst second now
  next := by
    rw [nextId_settleFirst, nextId_settleFirst]
    exact mirrors.ahead 0
  settles := by
    rw [settle_settleFirst, settle_settleFirst]
    exact mirrors.settle solo lasting now
  arrives := by
    intro arrival untaken fresh
    by_cases admits : server.stopped = false ∧ server.rejecting = false
    · obtain ⟨running, queueing⟩ := admits
      rw [arrive_settleFirst server solo.coherent running queueing,
        arrive_settleFirst other second (mirrors.stopped.trans running)
          (mirrors.rejecting.trans queueing)]
      exact mirrors.arrive solo lasting now untaken fresh
    · -- Probes stand in line only where clients do, so the first one in line is a client.
      have clients : ∀ id ∈ other.queue, id ∉ probes := by
        intro id waiting probe
        obtain ⟨queueing, listening⟩ := mirrors.queued id waiting probe
        simp only [isListening, Bool.and_eq_true, Bool.not_eq_true'] at listening
        exact admits ⟨mirrors.stopped.symm.trans listening.2,
          mirrors.rejecting.symm.trans queueing⟩
      have first : Mirrors alike number probes (server.settleFirst now)
          (other.settleFirst now) := by
        cases line : other.queue with
        | nil =>
            have calm : other.Calm := Or.inl line
            rwa [calm.settleFirst now, (mirrors.calm calm).settleFirst now]
        | cons head rest =>
            exact mirrors.settleFirst_client lasting line (clients head (by simp [line])) now
      exact first.arrive (solo.works (server.works_settleFirst now)) lasting now untaken fresh

theorem Twins.withdraw (twins : Twins alike number probes server other) (lasting : Lasting alike)
    (now : Rat) (id : Nat) :
    Trails alike number probes now (server.operate now (.withdraw id)).reported
      (other.operate now (.withdraw (number id))).reported := by
  have ended := twins.mirrors.endStream lasting now id .finished
  have solo := twins.solo.endStream now id
  obtain ⟨_, run⟩ := other.run_endStream now (number id)
  have second := run.coherent twins.second.coherent
  have attentive := twins.first.settled.attentive.endStream now id .finished
  have attends := twins.second.settled.attentive.endStream now (number id) .finished
  simp only [Server.operate, twins.mirrors.timeout]
  split
  · exact (ended.trails solo second attentive attends lasting now).reported
  · exact (ended.trails_settleFirst solo second attentive attends lasting now).reported

theorem nextId_withdraw (server : Server σ) (now : Rat) (id : Nat) :
    server.nextId ≤ (server.operate now (.withdraw id)).nextId := by
  obtain ⟨moves, run⟩ := (@works_operate _ _ server now (.withdraw id) (by simp)).alone
  refine Nat.le_trans (Nat.le_of_eq ?_) run.nextId_le
  simp only [opening]
  split
  · exact (server.nextId_update id _).symm
  · rfl

end SteeringChannel.Server
