import SteeringChannel.Proofs.Server.View

/-!
Everything that happens to a server, cut into its smallest parts, and the runs made of them. A
run leaves open which part comes next, so it also stops where an operation would still go on: with
a connection in the queue for which a task waits, with bytes that are not yet dispatched, or with a
closed connection that its task has not yet left.
-/

namespace SteeringChannel.Server

inductive Move where
  | listen
  | await (waiter : Waiter)
  | arrive (arrival : Connection)
  | receive (id : Nat) (bytes : List UInt8)
  | finish (id : Nat) (ending : Ending)
  | hand (now : Rat)
  | consume (now : Rat) (id : Nat) (bytes : List UInt8)
  | conclude (id : Nat) (ending : Ending)
  | giveUp (now : Rat) (id : Nat)
  | leave (handler : Handler)
  | beginStop
  | shut (id : Nat)
  | drain
  | live (moment : Moment)
  | report

variable {σ : Type} [Outlet σ]

def perform (server : Server σ) : Move → Server σ
  | .listen => server.listen
  | .await waiter => server.await waiter
  | .arrive arrival => server.register arrival
  | .receive id bytes => server.receive id bytes
  | .finish id ending => server.finish id ending
  | .hand now => server.handFirst now
  | .consume now id bytes => server.consume now id bytes
  | .conclude id ending => server.dismiss id (Connection.endingRecord id ending)
  | .giveUp _ id => server.dismiss id (server.idleRecord id)
  | .leave handler => server.leave handler
  | .beginStop => server.beginStop
  | .shut id => server.shut id
  | .drain => server.drain
  | .live moment => server.live moment
  | .report => server.reported

def isIdle (server : Server σ) (now : Rat) (handler : Handler) : Prop :=
  server.neverWaits = true ∨ server.isDue now handler = true

/-- When a part may happen. Only connections that a task handles are read, given up and left; a
connection is left when it has been closed. Who may start to wait is a matter of the run. -/
def Fits (starts : Server σ → Waiter → Prop) (server : Server σ) : Move → Prop
  | .await waiter => starts server waiter
  | .arrive arrival => arrival.taken = [] ∧ arrival.closes = 0
  | .consume _ id bytes =>
      id ∈ server.handlers.map Handler.connection ∧ bytes <+: server.unread id
  | .conclude id ending =>
      id ∈ server.handlers.map Handler.connection ∧ server.unread id = [] ∧
        server.ending? id = some ending
  | .giveUp now id =>
      ∃ handler ∈ server.handlers, handler.connection = id ∧ server.isIdle now handler
  | .leave handler => handler ∈ server.handlers ∧ server.isOpen handler.connection = false
  | .shut _ => server.stopped = true
  | .drain => server.stopped = true ∧ ∀ id ∈ server.queue, server.isOpen id = false
  | .live (.left handler) =>
      handler ∈ server.handlers ∧ server.isOpen handler.connection = false
  | .live _ => server.stopped = true
  | _ => True

/-- The states that a server can come to, with what has happened on the way. -/
inductive Run (starts : Server σ → Waiter → Prop) (start : Server σ) :
    List Move → Server σ → Prop
  | still : Run starts start [] start
  | move {moves server} (next : Move) : Run starts start moves server →
      server.Fits starts next → Run starts start (moves ++ [next]) (server.perform next)

theorem Run.one {starts : Server σ → Waiter → Prop} {server : Server σ} (move : Move)
    (fits : server.Fits starts move) : Run starts server [move] (server.perform move) :=
  Run.move move Run.still fits

theorem Run.trans {starts : Server σ → Waiter → Prop} {first middle last : Server σ}
    {before after : List Move} (run : Run starts first before middle)
    (rest : Run starts middle after last) : Run starts first (before ++ after) last := by
  induction rest with
  | still => simpa using run
  | move next _ fits ih =>
      rw [← List.append_assoc]
      exact Run.move next ih fits

theorem Run.foldl_eq {starts : Server σ → Waiter → Prop} {start server : Server σ}
    {moves : List Move} (run : Run starts start moves server) :
    moves.foldl perform start = server := by
  induction run with
  | still => rfl
  | move next _ _ ih => rw [List.foldl_append, ih, List.foldl_cons, List.foldl_nil]

theorem Run.uncons {starts : Server σ → Waiter → Prop} {start last : Server σ} {move : Move}
    {rest : List Move} (run : Run starts start (move :: rest) last) :
    start.Fits starts move ∧ Run starts (start.perform move) rest last := by
  generalize whole : move :: rest = moves at run
  induction run generalizing rest with
  | still => exact absurd whole (by simp)
  | @move moves server next run fits ih =>
      rcases List.cons_eq_append_iff.mp whole with ⟨rfl, single⟩ | ⟨others, rfl, rfl⟩
      · obtain ⟨rfl, rfl⟩ := List.cons.inj single
        obtain rfl : server = start := run.foldl_eq.symm
        exact ⟨fits, Run.still⟩
      · obtain ⟨first, later⟩ := ih rfl
        exact ⟨first, Run.move next later fits⟩

theorem Run.split {starts : Server σ → Waiter → Prop} {start last : Server σ}
    {before after : List Move} (run : Run starts start (before ++ after) last) :
    ∃ middle, Run starts start before middle ∧ Run starts middle after last := by
  induction before generalizing start with
  | nil => exact ⟨start, Run.still, run⟩
  | cons move rest ih =>
      obtain ⟨fits, run⟩ := run.uncons
      obtain ⟨middle, first, second⟩ := ih run
      exact ⟨middle, (Run.one move fits).trans first, second⟩

theorem Run.keeps {starts : Server σ → Waiter → Prop} {start server : Server σ}
    {moves : List Move} {kept : Server σ → Prop}
    (step : ∀ server move, server.Fits starts move → kept server → kept (server.perform move))
    (run : Run starts start moves server) (initial : kept start) : kept server := by
  induction run with
  | still => exact initial
  | move next _ fits ih => exact step _ next fits ih

def Fresh (server : Server σ) : Prop :=
  server = { path := server.path
             mode := server.mode
             timeout := server.timeout
             rejecting := server.rejecting
             dispatcher := server.dispatcher }

omit [Outlet σ] in
theorem leave_policy (server : Server σ) (handler : Handler) :
    (server.leave handler).rejecting = server.rejecting ∧
      (server.leave handler).timeout = server.timeout := by
  obtain ⟨waiters, records, finished, shape⟩ := server.leave_shape handler
  rw [shape]
  exact ⟨rfl, rfl⟩

theorem perform_policy (server : Server σ) (move : Move) :
    (server.perform move).rejecting = server.rejecting ∧
      (server.perform move).timeout = server.timeout := by
  cases move with
  | await waiter =>
      obtain ⟨waiters, records, finished, shape⟩ := server.await_shape waiter
      simp only [perform, shape, and_self]
  | arrive arrival => simp only [perform, rejecting_register, timeout_register, and_self]
  | hand now =>
      simp only [perform, handFirst]
      split <;> exact ⟨rfl, rfl⟩
  | consume now id bytes =>
      simp only [perform, consume_eq]
      exact ⟨rfl, rfl⟩
  | leave handler => exact leave_policy _ handler
  | live moment =>
      cases moment with
      | left handler => exact leave_policy _ handler
      | closeFailed id => exact ⟨rfl, rfl⟩
      | woken waiter => exact ⟨rfl, rfl⟩
  | _ => exact ⟨rfl, rfl⟩

theorem Run.policy {starts : Server σ → Waiter → Prop} {start server : Server σ}
    {moves : List Move} (run : Run starts start moves server) :
    server.rejecting = start.rejecting ∧ server.timeout = start.timeout := by
  induction run with
  | still => exact ⟨rfl, rfl⟩
  | @move _ server next _ _ ih =>
      have kept := server.perform_policy next
      exact ⟨kept.1.trans ih.1, kept.2.trans ih.2⟩

theorem path_perform (server : Server σ) (move : Move) :
    (server.perform move).path = server.path := by
  have left (server : Server σ) (handler : Handler) : (server.leave handler).path = server.path := by
    obtain ⟨waiters, records, finished, shape⟩ := server.leave_shape handler
    rw [shape]
    rfl
  cases move with
  | await waiter =>
      obtain ⟨waiters, records, finished, shape⟩ := server.await_shape waiter
      simp only [perform, shape]
  | arrive arrival =>
      simp only [perform, register]
      split <;> rfl
  | hand now =>
      simp only [perform, handFirst]
      split <;> rfl
  | consume now id bytes =>
      simp only [perform, consume_eq]
      rfl
  | leave handler => exact left server handler
  | live moment =>
      cases moment with
      | left handler => exact left (server.note _) handler
      | closeFailed id => rfl
      | woken waiter => rfl
  | _ => rfl

theorem path_foldl (moves : List Move) (server : Server σ) :
    (moves.foldl perform server).path = server.path := by
  induction moves generalizing server with
  | nil => rfl
  | cons move rest ih => exact (ih (server.perform move)).trans (server.path_perform move)

def Move.dispatched : List Move → List UInt8
  | [] => []
  | .consume _ _ bytes :: rest => bytes ++ dispatched rest
  | _ :: rest => dispatched rest

theorem Move.dispatched_append (before after : List Move) :
    dispatched (before ++ after) = dispatched before ++ dispatched after := by
  induction before with
  | nil => rfl
  | cons move rest ih =>
      cases move <;> simp [dispatched, ih]

end SteeringChannel.Server
