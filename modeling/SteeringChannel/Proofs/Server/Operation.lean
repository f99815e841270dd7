import SteeringChannel.Proofs.Server.Stream
import SteeringChannel.Proofs.Server.Work

/-!
The operations as runs. Left to itself a server brings nothing to read and starts no task; it only
hands over, reads and leaves, until every connection that is handled waits for its next byte.
-/

namespace SteeringChannel.Server

variable {σ : Type} [Outlet σ] {server other : Server σ}

def anybody (_ : Server σ) (_ : Waiter) : Prop := True

def Move.isSilent : Move → Prop
  | .await _ | .receive _ _ => False
  | .arrive arrival => arrival.unread = []
  | _ => True

def Reaches (server other : Server σ) : Prop :=
  ∃ moves, Run anybody server moves other ∧ ∀ move ∈ moves, move.isSilent

namespace Reaches

theorem refl (server : Server σ) : server.Reaches server :=
  ⟨[], Run.still, by simp⟩

theorem one (move : Move) (fits : server.Fits anybody move) (silent : move.isSilent) :
    server.Reaches (server.perform move) :=
  ⟨[move], Run.one move fits, by simpa using silent⟩

theorem trans {middle : Server σ} (first : server.Reaches middle)
    (second : middle.Reaches other) : server.Reaches other := by
  obtain ⟨before, run, silent⟩ := first
  obtain ⟨after, rest, still⟩ := second
  refine ⟨before ++ after, run.trans rest, fun move member => ?_⟩
  exact (List.mem_append.mp member).elim (silent move) (still move)

theorem coherent (reaches : server.Reaches other) (coherent : server.Coherent) :
    other.Coherent := by
  obtain ⟨moves, run, _⟩ := reaches
  exact run.coherent coherent

theorem policy (reaches : server.Reaches other) :
    other.rejecting = server.rejecting ∧ other.timeout = server.timeout := by
  obtain ⟨moves, run, _⟩ := reaches
  exact run.policy

theorem closed (reaches : server.Reaches other) (coherent : server.Coherent) {id : Nat}
    (earlier : id < server.nextId) (shut : server.isOpen id = false) :
    id < other.nextId ∧ other.isOpen id = false := by
  obtain ⟨moves, run, silent⟩ := reaches
  clear silent
  induction run with
  | still => exact ⟨earlier, shut⟩
  | move next run fits ih => exact closed_stays (run.coherent coherent).numbered fits ih.1 ih.2

end Reaches

omit [Outlet σ] in
theorem Fits.restart {starts others : Server σ → Waiter → Prop} {move : Move}
    (fits : server.Fits starts move)
    (starter : ∀ waiter, move = .await waiter → starts server waiter → others server waiter) :
    server.Fits others move := by
  cases move with
  | await waiter => exact starter waiter rfl fits
  | live moment => cases moment <;> exact fits
  | _ => exact fits

theorem Run.mono {starts others : Server σ → Waiter → Prop} {start : Server σ}
    {moves : List Move} (run : Run starts start moves server)
    (allowed : ∀ server waiter, starts server waiter → others server waiter) :
    Run others start moves server := by
  induction run with
  | still => exact Run.still
  | move next run fits ih => exact Run.move next ih (fits.restart fun waiter _ => allowed _ waiter)

theorem Run.restart {starts others : Server σ → Waiter → Prop} {start : Server σ}
    {moves : List Move} (run : Run starts start moves server)
    (starter : ∀ waiter, Move.await waiter ∉ moves) : Run others start moves server := by
  induction run with
  | still => exact Run.still
  | move next run fits ih =>
      refine Run.move next (ih fun waiter member => ?_) (fits.restart fun waiter same _ => ?_)
      · exact starter waiter (List.mem_append_left _ member)
      · exact absurd (List.mem_append_right _ (List.mem_singleton.mpr same.symm)) (starter waiter)

theorem Reaches.run (reaches : server.Reaches other) (starts : Server σ → Waiter → Prop) :
    ∃ moves, Run starts server moves other ∧ ∀ move ∈ moves, move.isSilent := by
  obtain ⟨moves, run, silent⟩ := reaches
  exact ⟨moves, run.restart fun waiter member => silent _ member, silent⟩

theorem Works.reaches {now : Rat} (works : server.Works now other) : server.Reaches other := by
  obtain ⟨moves, run, own⟩ := works
  refine ⟨moves, run.mono fun _ _ _ => trivial, fun move member => ?_⟩
  have mine := own move member
  cases move with
  | await waiter => exact mine
  | receive id bytes => exact mine
  | arrive arrival => exact mine.elim
  | _ => trivial

theorem reaches_readIfHandled (server : Server σ) (now : Rat) (id : Nat) :
    server.Reaches (server.readIfHandled now id) :=
  (works_readIfHandled server now id).reaches

theorem reaches_settleFirst (server : Server σ) (now : Rat) :
    server.Reaches (server.settleFirst now) :=
  (works_settleFirst server now).reaches

theorem reaches_settle (server : Server σ) (now : Rat) : server.Reaches (server.settle now) :=
  (works_settle server now).reaches

theorem reaches_arrive (server : Server σ) (now : Rat) (arrival : Connection) :
    (server.register arrival).Reaches (server.arrive now arrival) := by
  simp only [arrive]
  split
  · exact reaches_settle _ now
  · exact Reaches.refl _

theorem reaches_endStream (server : Server σ) (now : Rat) (id : Nat) (ending : Ending) :
    server.Reaches (server.endStream now id ending) := by
  simp only [endStream]
  split
  · have finished : server.Reaches (server.finish id ending) :=
      Reaches.one (.finish id ending) trivial trivial
    exact finished.trans (reaches_readIfHandled _ now id)
  · exact Reaches.refl server

theorem reaches_hangUp (server : Server σ) (now : Rat) (id : Nat) (ending : Ending) :
    server.Reaches (server.hangUp now id ending) :=
  (server.reaches_endStream now id ending).trans (reaches_settle _ now)

theorem reaches_expire {handler : Handler} {now : Rat} (present : handler ∈ server.handlers)
    (due : server.isDue now handler = true) : server.Reaches (server.expire now handler) :=
  (works_expire present due).reaches

theorem reaches_leaveExpired {handler : Handler} (now : Rat)
    (closed : handler ∈ server.handlers → server.isOpen handler.connection = false) :
    server.Reaches (server.leaveExpired now handler) :=
  (works_leaveExpired now closed).reaches

inductive Operation where
  | listen
  | stop
  | start (task : Nat) (duty : Duty)
  | arrive (arrival : Connection)
  | deliver (id : Nat) (bytes : List UInt8)
  | hangUp (id : Nat)
  /-- The end of a stream whose peer goes on before the server has settled. -/
  | withdraw (id : Nat)
  | settle

def operate (server : Server σ) (now : Rat) : Operation → Server σ
  | .listen => server.listen
  | .stop => server.stop
  | .start task duty => server.startTask now task duty
  | .arrive arrival => server.arrive now arrival
  | .deliver id bytes => server.deliver now id bytes
  | .hangUp id => server.hangUp now id .finished
  | .withdraw id =>
      let ended := server.endStream now id .finished
      if server.timeout.isSome then ended else ended.settleFirst now
  | .settle => server.settle now

def operateAll (server : Server σ) (now : Rat) (operations : List Operation) : Server σ :=
  operations.foldl (fun server operation => (server.operate now operation).reported) server

def opening (server : Server σ) : Operation → List Move
  | .listen => [.listen]
  | .start task duty => [.await ⟨task, duty⟩]
  | .arrive arrival => [.arrive arrival]
  | .deliver id bytes => if server.isOpen id then [.receive id bytes] else []
  | .hangUp id | .withdraw id => if server.isOpen id then [.finish id .finished] else []
  | .stop | .settle => []

theorem works_endStream (server : Server σ) (now : Rat) (id : Nat) :
    ((if server.isOpen id then [.finish id .finished] else []).foldl perform server).Works now
      (server.endStream now id .finished) := by
  simp only [endStream]
  split
  · exact works_readIfHandled (server.finish id .finished) now id
  · exact Works.refl now server

theorem works_operate (server : Server σ) (now : Rat) {operation : Operation}
    (goes : operation ≠ .stop) :
    ((server.opening operation).foldl perform server).Works now (server.operate now operation) := by
  cases operation with
  | listen => exact Works.refl now server.listen
  | stop => exact absurd rfl goes
  | start task duty => exact works_settle (server.await ⟨task, duty⟩) now
  | arrive arrival =>
      simp only [operate, arrive, opening]
      split
      · exact works_settle (server.register arrival) now
      · exact Works.refl now (server.register arrival)
  | deliver id bytes =>
      simp only [operate, deliver, opening]
      split
      · exact (works_readIfHandled (server.receive id bytes) now id).trans (works_settle _ now)
      · exact Works.refl now server
  | hangUp id => exact (server.works_endStream now id).trans (works_settle _ now)
  | withdraw id =>
      simp only [operate]
      split
      · exact server.works_endStream now id
      · exact (server.works_endStream now id).trans (works_settleFirst _ now)
  | settle => exact works_settle server now

theorem lifecycle_operate (server : Server σ) (now : Rat) {operation : Operation}
    (listens : operation ≠ .listen) (goes : operation ≠ .stop) :
    (server.operate now operation).listening = server.listening ∧
      (server.operate now operation).stopped = server.stopped := by
  obtain ⟨listening, stopped⟩ := (server.works_operate now goes).lifecycle
  rw [listening, stopped]
  cases operation with
  | listen => exact absurd rfl listens
  | stop => exact absurd rfl goes
  | start task duty =>
      obtain ⟨waiters, records, finished, shape⟩ := server.await_shape ⟨task, duty⟩
      simp only [opening, List.foldl_cons, List.foldl_nil, perform, shape, and_self]
  | arrive arrival => exact ⟨server.listening_register arrival, server.stopped_register arrival⟩
  | settle => exact ⟨rfl, rfl⟩
  | _ =>
      simp only [opening]
      split <;> exact ⟨rfl, rfl⟩

theorem stopped_operateAll (server : Server σ) (now : Rat) {operations : List Operation}
    (goes : ∀ operation ∈ operations, operation ≠ .stop) :
    (server.operateAll now operations).stopped = server.stopped := by
  induction operations generalizing server with
  | nil => rfl
  | cons operation rest ih =>
      obtain ⟨here, later⟩ := List.forall_mem_cons.mp goes
      refine (ih (server.operate now operation).reported later).trans ?_
      by_cases listens : operation = .listen
      · exact listens ▸ rfl
      · exact (server.lifecycle_operate now listens here).2

def Operation.isTraffic : Operation → Prop
  | .listen | .stop | .start _ _ => False
  | .arrive arrival => arrival.taken = [] ∧ arrival.closes = 0
  | _ => True

theorem lifecycle_traffic (server : Server σ) (now : Rat) {operations : List Operation}
    (traffic : ∀ operation ∈ operations, operation.isTraffic) :
    (server.operateAll now operations).listening = server.listening ∧
      (server.operateAll now operations).stopped = server.stopped := by
  induction operations generalizing server with
  | nil => exact ⟨rfl, rfl⟩
  | cons operation rest ih =>
      obtain ⟨here, later⟩ := List.forall_mem_cons.mp traffic
      have listens : operation ≠ .listen := fun same => (same ▸ here : Operation.listen.isTraffic)
      have goes : operation ≠ .stop := fun same => (same ▸ here : Operation.stop.isTraffic)
      obtain ⟨listening, stopped⟩ := server.lifecycle_operate now listens goes
      obtain ⟨after, halted⟩ := ih (server.operate now operation).reported later
      exact ⟨after.trans listening, halted.trans stopped⟩

end SteeringChannel.Server
