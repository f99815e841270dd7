import Mathlib.Data.List.Basic
import SteeringChannel.Proofs.Server.Stream

/-!
One loop that serves. It reads one connection at a time, to its end, before it takes the next, so
the dispatched bytes are the connections' bytes one after the other in the order of arrival.
-/

namespace SteeringChannel.Server

variable {σ : Type} {server : Server σ}

/-- A loop starts to serve only while no other task waits or reads. -/
def alone (server : Server σ) (waiter : Waiter) : Prop :=
  waiter.duty = .serve ∧ server.waiters = [] ∧ server.handlers = []

structure Looped (server : Server σ) : Prop where
  single : server.waiters.length + server.handlers.length ≤ 1
  serving : ∀ waiter ∈ server.waiters, waiter.duty = .serve
  repeating : ∀ handler ∈ server.handlers, handler.repeats = true
  handled : ∀ id, server.standing? id = some .handed →
    id ∈ server.handlers.map Handler.connection
  latest : ∀ id ∈ server.handlers.map Handler.connection, server.accepted.getLast? = some id
  counted : server.served + server.handlers.length = server.accepted.length

theorem Fresh.looped (fresh : server.Fresh) : server.Looped := by
  rw [fresh]
  constructor <;> simp [standing?, connection?]

theorem repeats_consume [Outlet σ] (now : Rat) (id : Nat) (bytes : List UInt8)
    (repeating : ∀ handler ∈ server.handlers, handler.repeats = true) :
    ∀ handler ∈ (server.consume now id bytes).handlers, handler.repeats = true := by
  rw [consume_eq]
  intro handler member
  dsimp only at member
  split at member
  · exact repeating handler member
  · obtain ⟨before, present, rfl⟩ := List.mem_map.mp member
    split <;> exact repeating before present

namespace Looped

variable (looped : server.Looped)
include looped

theorem still {other : Server σ} (waiters : other.waiters = server.waiters)
    (handlers : other.handlers.map Handler.connection = server.handlers.map Handler.connection)
    (repeating : ∀ handler ∈ other.handlers, handler.repeats = true)
    (standing : ∀ id, other.standing? id = some .handed → server.standing? id = some .handed)
    (accepted : other.accepted = server.accepted) (served : other.served = server.served) :
    other.Looped := by
  have length : other.handlers.length = server.handlers.length := by
    simpa using congrArg List.length handlers
  constructor
  case single => simpa only [waiters, length] using looped.single
  case serving => simpa only [waiters] using looped.serving
  case repeating => exact repeating
  case handled =>
    intro id handed
    rw [handlers]
    exact looped.handled id (standing id handed)
  case latest => simpa only [handlers, accepted] using looped.latest
  case counted => simpa only [length, accepted, served] using looped.counted

theorem await {waiter : Waiter} (fits : server.alone waiter) : (server.await waiter).Looped := by
  obtain ⟨serves, idle, unread⟩ := fits
  have waiting := server.waiters_await waiter
  obtain ⟨waiters, records, finished, shape⟩ := server.await_shape waiter
  rw [shape] at waiting ⊢
  dsimp only at waiting
  constructor
  case single =>
    rw [waiting]
    split <;> simp [idle, unread]
  case serving =>
    rw [waiting]
    split <;> simp [idle, serves]
  case repeating => exact looped.repeating
  case handled => exact looped.handled
  case latest => exact looped.latest
  case counted => exact looped.counted

theorem register (numbered : server.Numbered) (arrival : Connection) :
    (server.register arrival).Looped := by
  refine looped.still (server.waiters_register arrival)
    (congrArg (List.map Handler.connection) (server.handlers_register arrival)) ?_ ?_
    (server.accepted_register arrival) (server.served_register arrival)
  · rw [handlers_register]
    exact looped.repeating
  · intro id handed
    rw [standing?_register numbered] at handed
    split at handed
    · rcases server.fate_cases with ⟨fate, _⟩ | ⟨fate, _⟩ | ⟨fate, _⟩ <;> simp [fate] at handed
    · exact handed

theorem handFirst (now : Rat) : (server.handFirst now).Looped := by
  simp only [Server.handFirst]
  split
  next id rest waiter others _ waiters =>
    have serves : waiter.duty = .serve := looped.serving waiter (by simp [waiters])
    have single := looped.single
    rw [waiters, List.length_cons] at single
    have alone : others = [] := List.length_eq_zero_iff.mp (by omega)
    have idle : server.handlers = [] := List.length_eq_zero_iff.mp (by omega)
    have handlers : (server.hand now waiter id).handlers = [⟨waiter.task, true, id, now⟩] := by
      simp [Server.hand, Waiter.handler?, serves, idle]
    constructor
    case single => simp [handlers, alone]
    case serving => simp [alone]
    case repeating => simp [handlers]
    case handled =>
      intro other handed
      replace handed := (server.standing?_hand now waiter id other).symm.trans handed
      split at handed
      next same => simp [handlers, same]
      next =>
        have before := looped.handled other handed
        simp [idle] at before
    case latest =>
      intro other member
      simp only [handlers, List.map_cons, List.map_nil, List.mem_singleton] at member
      subst member
      exact List.getLast?_concat
    case counted =>
      have before := looped.counted
      change server.served + (server.hand now waiter id).handlers.length =
        (server.accepted ++ [id]).length
      rw [idle, List.length_nil] at before
      rw [handlers, List.length_append, List.length_singleton, List.length_singleton]
      omega
  next => exact looped

theorem handlers_eq {handler : Handler} (present : handler ∈ server.handlers) :
    server.waiters = [] ∧ server.handlers = [handler] := by
  obtain ⟨first, rest, shape⟩ := List.exists_cons_of_ne_nil (List.ne_nil_of_mem present)
  have single := looped.single
  rw [shape, List.length_cons] at single
  have waiters : server.waiters = [] := List.length_eq_zero_iff.mp (by omega)
  have others : rest = [] := List.length_eq_zero_iff.mp (by omega)
  rw [shape, others, List.mem_singleton] at present
  exact ⟨waiters, by rw [shape, others, present]⟩

theorem leave {handler : Handler} (present : handler ∈ server.handlers) :
    (server.leave handler).Looped := by
  obtain ⟨idle, handlers⟩ := looped.handlers_eq present
  have waiting := server.waiters_leave handler
  obtain ⟨waiters, records, finished, shape⟩ := server.leave_shape handler
  rw [shape] at waiting ⊢
  dsimp only at waiting
  have left : (server.release handler.connection).handlers = [] := by
    simp [Server.release, handlers]
  constructor
  case single =>
    rw [waiting, left]
    split <;> simp [idle]
  case serving =>
    rw [waiting]
    split <;> simp [idle]
  case repeating => simp [left]
  case handled =>
    intro id handed
    replace handed := (server.standing?_release handler.connection id).symm.trans handed
    split at handed
    next => simp at handed
    next different =>
      have before := looped.handled id handed
      rw [handlers] at before
      exact absurd (List.mem_singleton.mp before) different
  case latest => simp [left]
  case counted =>
    have before := looped.counted
    rw [handlers, List.length_singleton] at before
    change server.served + 1 + (server.release handler.connection).handlers.length =
      server.accepted.length
    rw [left, List.length_nil, before]

theorem drain : server.drain.Looped := by
  have single := looped.single
  constructor
  case single =>
    change server.waiters.tail.length + server.handlers.length ≤ 1
    rw [List.length_tail]
    omega
  case serving => exact fun waiter member => looped.serving waiter (List.mem_of_mem_tail member)
  case repeating => exact looped.repeating
  case handled =>
    intro id handed
    rw [standing?_drain] at handed
    obtain ⟨standing, stands, becomes⟩ := Option.map_eq_some_iff.mp handed
    split at becomes
    · simp at becomes
    · exact looped.handled id (becomes ▸ stands)
  case latest => exact looped.latest
  case counted => exact looped.counted

theorem perform [Outlet σ] (coherent : server.Coherent) {move : Move}
    (fits : server.Fits alone move) : (server.perform move).Looped := by
  cases move with
  | await waiter => exact looped.await fits
  | arrive arrival => exact looped.register coherent.numbered arrival
  | receive id bytes =>
      exact looped.still rfl rfl looped.repeating (by simp [Server.perform]) rfl rfl
  | finish id ending =>
      exact looped.still rfl rfl looped.repeating (by simp [Server.perform]) rfl rfl
  | hand now => exact looped.handFirst now
  | consume now id bytes =>
      refine looped.still ?_ (server.connections_consume_handlers now id bytes)
        (repeats_consume now id bytes looped.repeating) (by simp [Server.perform]) ?_ ?_
      all_goals
        simp only [Server.perform, consume_eq]
        rfl
  | conclude id ending =>
      exact looped.still rfl rfl looped.repeating (by simp [Server.perform]) rfl rfl
  | giveUp now id =>
      exact looped.still rfl rfl looped.repeating (by simp [Server.perform]) rfl rfl
  | leave handler => exact looped.leave fits.1
  | shut id => exact looped.still rfl rfl looped.repeating (by simp [Server.perform]) rfl rfl
  | drain => exact looped.drain
  | live moment =>
      cases moment with
      | closeFailed id =>
          exact looped.still rfl rfl looped.repeating (fun _ handed => handed) rfl rfl
      | left handler =>
          have noted : (server.note (Connection.disconnectedRecord handler.connection)).Looped :=
            looped.still rfl rfl looped.repeating (fun _ handed => handed) rfl rfl
          exact noted.leave fits.1
      | woken waiter =>
          exact looped.still rfl rfl looped.repeating (fun _ handed => handed) rfl rfl
  | _ => exact looped.still rfl rfl looped.repeating (fun _ handed => handed) rfl rfl

end Looped

theorem Run.looped [Outlet σ] {start : Server σ} {moves : List Move}
    (run : Run alone start moves server) (initial : start.Coherent) (looped : start.Looped) :
    server.Looped := by
  induction run with
  | still => exact looped
  | move next run fits ih => exact ih.perform (run.coherent initial) fits

def Move.readFrom (id : Nat) (moves : List Move) : List UInt8 :=
  moves.flatMap fun
    | .consume _ other bytes => if other = id then bytes else []
    | _ => []

theorem Move.readFrom_append (id : Nat) (before after : List Move) :
    readFrom id (before ++ after) = readFrom id before ++ readFrom id after :=
  List.flatMap_append

theorem Move.readFrom_quiet {move : Move} (quiet : move.isQuiet = true) (id : Nat) :
    readFrom id [move] = [] := by
  cases move <;> first | rfl | simp [isQuiet] at quiet

theorem taken_perform [Outlet σ] (coherent : server.Coherent) {starts : Server σ → Waiter → Prop}
    {move : Move} (fits : server.Fits starts move) (id : Nat) :
    (server.perform move).taken id = server.taken id ++ Move.readFrom id [move] := by
  by_cases quiet : move.isQuiet = true
  · rw [Move.readFrom_quiet quiet, List.append_nil]
    exact (server.sameStream_perform quiet id).taken
  · cases move with
    | arrive arrival =>
        rw [perform, taken_register coherent.numbered]
        split
        next same =>
          simp [same, Move.readFrom, fits.1, taken, coherent.numbered.connection?_nextId]
        next => simp [Move.readFrom]
    | consume now other bytes =>
        rw [perform, server.taken_consume now other id bytes fits.2]
        by_cases same : id = other
        · simp [same, Move.readFrom]
        · simp [same, Ne.symm same, Move.readFrom]
    | receive other bytes => simp [perform, Move.readFrom]
    | finish other ending => simp [perform, Move.readFrom]
    | conclude other ending => simp [perform, Move.readFrom]
    | giveUp now other => simp [perform, Move.readFrom]
    | shut other => simp [perform, Move.readFrom]
    | _ => simp [Move.isQuiet] at quiet

theorem Run.taken_append [Outlet σ] {starts : Server σ → Waiter → Prop} {start : Server σ}
    {moves : List Move} (run : Run starts start moves server) (coherent : start.Coherent)
    (id : Nat) : server.taken id = start.taken id ++ Move.readFrom id moves := by
  induction run with
  | still => exact (List.append_nil _).symm
  | move next run fits ih =>
      rw [taken_perform (run.coherent coherent) fits, Move.readFrom_append, ih, List.append_assoc]

theorem Run.taken [Outlet σ] {starts : Server σ → Waiter → Prop} {start : Server σ}
    {moves : List Move} (run : Run starts start moves server) (fresh : start.Fresh) (id : Nat) :
    server.taken id = Move.readFrom id moves := by
  rw [run.taken_append fresh.coherent, fresh]
  rfl

/-! The bytes of all connections. -/

theorem accepted_perform [Outlet σ] (server : Server σ) (move : Move) :
    (server.perform move).accepted = server.accepted ∨
      ∃ id ∈ server.queue, (server.perform move).accepted = server.accepted ++ [id] ∧
        move.isQuiet = true ∧ Move.dispatched [move] = [] := by
  cases move with
  | await waiter =>
      obtain ⟨waiters, records, finished, shape⟩ := server.await_shape waiter
      exact Or.inl (by simp only [perform, shape])
  | arrive arrival => exact Or.inl (server.accepted_register arrival)
  | hand now =>
      simp only [perform, handFirst]
      split
      next id rest waiter others queue _ =>
        exact Or.inr ⟨id, by simp [queue], rfl, rfl, rfl⟩
      next => exact Or.inl rfl
  | consume now id bytes => exact Or.inl (by simp only [perform, consume_eq]; rfl)
  | leave handler =>
      obtain ⟨waiters, records, finished, shape⟩ := server.leave_shape handler
      exact Or.inl (by simp only [perform, shape]; rfl)
  | live moment =>
      cases moment with
      | left handler =>
          obtain ⟨waiters, records, finished, shape⟩ :=
            (server.note (Connection.disconnectedRecord handler.connection)).leave_shape handler
          exact Or.inl (by simp only [perform, live, shape]; rfl)
      | closeFailed id => exact Or.inl rfl
      | woken waiter => exact Or.inl rfl
  | _ => exact Or.inl rfl

theorem flatMap_last {accepted : List Nat} {id : Nat} (last : accepted.getLast? = some id)
    (distinct : accepted.Nodup) (blocks : Nat → List UInt8) (bytes : List UInt8) :
    accepted.flatMap (fun other => blocks other ++ if id = other then bytes else []) =
      accepted.flatMap blocks ++ bytes := by
  obtain ⟨before, rfl⟩ := List.getLast?_eq_some_iff.mp last
  have elsewhere : ∀ other ∈ before, blocks other ++ (if id = other then bytes else []) =
      blocks other := by
    intro other member
    have different : id ≠ other := by
      rintro rfl
      exact (List.nodup_append.mp distinct).2.2 id member id (List.mem_singleton.mpr rfl) rfl
    rw [if_neg different, List.append_nil]
  rw [List.flatMap_append, List.flatMap_append, List.flatMap_congr elsewhere]
  simp

theorem flatMap_perform [Outlet σ] (coherent : server.Coherent) (looped : server.Looped)
    {move : Move} (fits : server.Fits alone move) :
    (server.perform move).accepted.flatMap (server.perform move).taken =
      server.accepted.flatMap server.taken ++ Move.dispatched [move] := by
  have grown := taken_perform coherent fits
  rcases server.accepted_perform move with same | ⟨id, queued, more, quiet, nothing⟩
  · rw [same]
    cases move with
    | consume now id bytes =>
        -- The loop reads the connection it accepted last, so only the last block grows.
        have last := looped.latest id fits.1
        have distinct : server.accepted.Nodup :=
          (List.pairwise_append.mp coherent.ordered).1.imp Nat.ne_of_lt
        rw [List.flatMap_congr fun other _ => grown other]
        simpa [Move.readFrom, Move.dispatched] using flatMap_last last distinct server.taken bytes
    | _ =>
        rw [List.flatMap_congr fun other _ => grown other]
        simp [Move.readFrom, Move.dispatched]
  · have unread : (server.perform move).taken id = [] := by
      rw [grown, Move.readFrom_quiet quiet, List.append_nil]
      -- What waits in the queue is later than all that was accepted.
      refine coherent.untaken id fun accepted => ?_
      have ordered := (List.pairwise_append.mp coherent.ordered).2.2 id accepted id queued
      exact Nat.lt_irrefl id ordered
    rw [more, nothing, List.flatMap_append, List.append_nil]
    rw [List.flatMap_congr fun other _ => grown other]
    simp [Move.readFrom_quiet quiet, unread]

theorem Run.blocks [Outlet σ] {start : Server σ} {moves : List Move}
    (run : Run alone start moves server) (coherent : start.Coherent) (looped : start.Looped) :
    server.accepted.flatMap server.taken =
      start.accepted.flatMap start.taken ++ Move.dispatched moves := by
  induction run with
  | still => exact (List.append_nil _).symm
  | move next run fits ih =>
      rw [flatMap_perform (run.coherent coherent) (run.looped coherent looped) fits,
        Move.dispatched_append, ih, List.append_assoc]

theorem Run.dispatched [Outlet σ] {start : Server σ} {moves : List Move}
    (run : Run alone start moves server) (fresh : start.Fresh) :
    Move.dispatched moves = server.accepted.flatMap fun id => Move.readFrom id moves := by
  have blocks := run.blocks fresh.coherent fresh.looped
  have nothing : start.accepted.flatMap start.taken = [] := by
    rw [fresh]
    rfl
  rw [nothing, List.nil_append] at blocks
  rw [← blocks]
  exact List.flatMap_congr fun id _ => run.taken fresh id

theorem dispatcher_perform [Outlet σ] (server : Server σ) (move : Move) :
    (server.perform move).dispatcher =
      (server.dispatcher.dispatchBytes (Move.dispatched [move])).1 := by
  cases move with
  | await waiter =>
      obtain ⟨waiters, records, finished, shape⟩ := server.await_shape waiter
      simp only [perform, shape]
      rfl
  | arrive arrival => exact server.dispatcher_register arrival
  | hand now =>
      simp only [perform, handFirst]
      split <;> rfl
  | consume now id bytes =>
      simp only [perform, consume_eq, Move.dispatched, List.append_nil]
  | leave handler =>
      obtain ⟨waiters, records, finished, shape⟩ := server.leave_shape handler
      simp only [perform, shape]
      rfl
  | live moment =>
      cases moment with
      | left handler =>
          obtain ⟨waiters, records, finished, shape⟩ :=
            (server.note (Connection.disconnectedRecord handler.connection)).leave_shape handler
          simp only [perform, live, shape]
          rfl
      | closeFailed id => rfl
      | woken waiter => rfl
  | _ => rfl

theorem Run.dispatcher [Outlet σ] {starts : Server σ → Waiter → Prop} {start : Server σ}
    {moves : List Move} (run : Run starts start moves server) :
    server.dispatcher = (start.dispatcher.dispatchBytes (Move.dispatched moves)).1 := by
  induction run with
  | still => rfl
  | move next run fits ih =>
      rw [dispatcher_perform, ih, Move.dispatched_append, Dispatcher.dispatchBytes_append]

theorem flatMap_filter_of_nil {α β : Type} {items : List α} {keeps : α → Bool} {view : α → List β}
    (nothing : ∀ item, keeps item = false → view item = []) :
    (items.filter keeps).flatMap view = items.flatMap view := by
  induction items with
  | nil => rfl
  | cons item rest ih =>
      cases kept : keeps item <;> simp [kept, nothing, ih]

/-- What was dispatched is still to be read off the connections, in the order in which they came. -/
theorem Coherent.flatMap_taken (coherent : server.Coherent) :
    server.connections.flatMap Connection.taken = server.accepted.flatMap server.taken := by
  have own : ∀ connection ∈ server.connections, connection.taken = server.taken connection.id :=
    fun connection present => by simp [taken, coherent.numbered.connection?_of_mem present]
  have ids : server.connections.map Connection.id = List.range' 1 server.connections.length :=
    coherent.numbered
  have sorted := (List.pairwise_append.mp coherent.ordered).1
  have came {id : Nat} (accepted : id ∈ server.accepted) :
      id ∈ server.connections.map Connection.id := by
    obtain ⟨connection, found⟩ : ∃ connection, server.connection? id = some connection := by
      rcases (coherent.accepted id).mp accepted with stands | stands <;>
        exact (Option.map_eq_some_iff.mp stands).imp fun _ found => found.1
    exact List.mem_map.mpr ⟨connection, server.mem_of_connection? found,
      server.id_of_connection? found⟩
  have members : (server.connections.map Connection.id).filter (· ∈ server.accepted) =
      server.accepted := by
    have order : ((server.connections.map Connection.id).filter (· ∈ server.accepted)).Pairwise
        (· < ·) := by
      rw [ids]
      exact (List.pairwise_lt_range' 1 Nat.one_pos).filter _
    refine List.Perm.eq_of_pairwise (fun _ _ _ _ first second => absurd second (Nat.lt_asymm first))
      order sorted ?_
    refine (List.perm_ext_iff_of_nodup (order.imp Nat.ne_of_lt) (sorted.imp Nat.ne_of_lt)).mpr ?_
    exact fun id => ⟨fun member => by simpa using (List.mem_filter.mp member).2,
      fun accepted => List.mem_filter.mpr ⟨came accepted, by simpa using accepted⟩⟩
  calc server.connections.flatMap Connection.taken
      = (server.connections.map Connection.id).flatMap server.taken := by
        rw [List.flatMap_map]
        exact List.flatMap_congr own
    _ = ((server.connections.map Connection.id).filter (· ∈ server.accepted)).flatMap
          server.taken :=
        (flatMap_filter_of_nil fun id other => coherent.untaken id (by simpa using other)).symm
    _ = server.accepted.flatMap server.taken := by rw [members]

theorem Run.ledger [Outlet σ] {start : Server σ} {moves : List Move}
    (run : Run alone start moves server) (fresh : start.Fresh) :
    let bytes := server.connections.flatMap Connection.taken
    server.dispatcher.store =
      ⟨(bytes.map Command.ofByte).foldl RuntimeState.apply start.dispatcher.store.state,
        start.dispatcher.store.applied + bytes.length⟩ := by
  have blocks := run.blocks fresh.coherent fresh.looped
  have nothing : start.accepted.flatMap start.taken = [] := by
    rw [fresh]
    rfl
  rw [nothing, List.nil_append, ← (run.coherent fresh.coherent).flatMap_taken] at blocks
  rw [run.dispatcher, Dispatcher.store_dispatchBytes, Store.foldl_apply, List.length_map, ← blocks]

theorem Run.readFrom_eq_nil [Outlet σ] {starts : Server σ → Waiter → Prop} {start : Server σ}
    {moves : List Move} (run : Run starts start moves server) (fresh : start.Fresh) {id : Nat}
    (unaccepted : id ∉ server.accepted) : Move.readFrom id moves = [] := by
  rw [← run.taken fresh]
  exact (run.coherent fresh.coherent).untaken id unaccepted

theorem Run.readFrom_prefix [Outlet σ] {starts : Server σ → Waiter → Prop} {start : Server σ}
    {moves : List Move} (run : Run starts start moves server) (fresh : start.Fresh) (id : Nat) :
    Move.readFrom id moves <+: (Move.stream id moves).sent := by
  rw [← run.taken fresh]
  exact (List.prefix_append _ _).trans (run.heard fresh id).begins

/-- A closed connection has been read to its end, unless its time was over or a stop closed it. -/
theorem Run.readFrom_whole [Outlet σ] {starts : Server σ → Waiter → Prop} {start : Server σ}
    {moves : List Move} (run : Run starts start moves server) (fresh : start.Fresh) {id : Nat}
    (accepted : id ∈ server.accepted) (closed : server.isOpen id = false)
    (patient : ∀ now, Move.giveUp now id ∉ moves) (undisturbed : Move.shut id ∉ moves) :
    Move.readFrom id moves = (Move.stream id moves).sent := by
  obtain ⟨move, member, closes⟩ := run.closer fresh (List.mem_append_left _ accepted) closed
  rcases closes with ⟨ending, rfl⟩ | ⟨now, rfl⟩ | rfl
  · obtain ⟨unread, ended⟩ := run.readOut fresh.coherent member
    have whole := ((run.heard fresh id).whole (Or.inr ended)).1
    rw [← run.taken fresh, ← whole, unread, List.append_nil]
  · exact absurd member (patient now)
  · exact absurd member undisturbed

/-- However the clients come, send and go, one loop dispatches the bytes of each accepted
connection in one block, and the blocks in the order of arrival. A block is the beginning of what
the client has sent, and all of it when the loop was not kept from reading it. The state is what
the commands of these bytes make of the first one. -/
theorem serves_serially [Outlet σ] {start server : Server σ} {moves : List Move}
    (fresh : start.Fresh) (run : Run alone start moves server) :
    (Move.dispatched moves = server.accepted.flatMap fun id => Move.readFrom id moves) ∧
    server.accepted.Pairwise (· < ·) ∧
    (∀ id ∈ server.accepted, Move.readFrom id moves <+: (Move.stream id moves).sent) ∧
    (∀ id ∈ server.accepted, server.isOpen id = false → (∀ now, Move.giveUp now id ∉ moves) →
      Move.shut id ∉ moves → Move.readFrom id moves = (Move.stream id moves).sent) ∧
    (∀ id, server.standing? id = some .rejected →
      id ∉ server.accepted ∧ Move.readFrom id moves = []) ∧
    server.dispatcher = (start.dispatcher.dispatchBytes (Move.dispatched moves)).1 ∧
    ∃ commands,
      ((Move.dispatched moves).mapM fun byte => Command.decode byte.toNat) = .ok commands ∧
      server.dispatcher.store.state =
        commands.foldl RuntimeState.apply start.dispatcher.store.state ∧
      server.dispatcher.store.applied =
        start.dispatcher.store.applied + (Move.dispatched moves).length := by
  have coherent := run.coherent fresh.coherent
  have store : server.dispatcher.store =
      ((Move.dispatched moves).map Command.ofByte).foldl Store.apply start.dispatcher.store := by
    rw [run.dispatcher, Dispatcher.store_dispatchBytes]
  rw [Store.foldl_apply, List.length_map] at store
  refine ⟨run.dispatched fresh, (List.pairwise_append.mp coherent.ordered).1, ?_, ?_, ?_,
    run.dispatcher, (Move.dispatched moves).map Command.ofByte, Command.mapM_decode _, ?_, ?_⟩
  · exact fun id _ => run.readFrom_prefix fresh id
  · exact fun id accepted closed patient undisturbed =>
      run.readFrom_whole fresh accepted closed patient undisturbed
  · intro id rejected
    have unaccepted : id ∉ server.accepted := by
      rw [coherent.accepted, rejected]
      simp
    exact ⟨unaccepted, run.readFrom_eq_nil fresh unaccepted⟩
  · rw [store]
  · rw [store]

/-- The second client sends first, but it waits in the queue until the loop has read the first one
to its end. -/
theorem serves_serially_two_clients :
    let start : Server Recorder := { path := "swi.sock", rejecting := false }
    let moves : List Move := [.listen, .await ⟨0, .serve⟩, .arrive { id := 0 }, .hand 0,
      .arrive { id := 0 }, .receive 2 [0x07, 0x51], .receive 1 [0x50], .consume 0 1 [0x50],
      .finish 1 .finished, .conclude 1 .finished, .leave ⟨0, true, 1, 0⟩, .hand 0,
      .consume 0 2 [0x07]]
    let server := moves.foldl perform start
    start.Fresh ∧ Run alone start moves server ∧ server.accepted = [1, 2] ∧
      Move.dispatched moves = [0x50, 0x07] ∧
      server.isOpen 1 = false ∧ Move.readFrom 1 moves = [0x50] ∧
      (Move.stream 1 moves).sent = [0x50] ∧
      server.isOpen 2 = true ∧ Move.readFrom 2 moves <+: [0x07, 0x51] ∧
      server.dispatcher.store = ⟨{ running := true, value := some 7 }, 2⟩ := by
  intro start moves server
  have fresh : start.Fresh := rfl
  have run : Run alone start moves server := by
    refine Run.move (.consume 0 2 [0x07]) (Run.move (.hand 0) (Run.move (.leave ⟨0, true, 1, 0⟩)
      (Run.move (.conclude 1 .finished) (Run.move (.finish 1 .finished)
      (Run.move (.consume 0 1 [0x50]) (Run.move (.receive 1 [0x50])
      (Run.move (.receive 2 [0x07, 0x51]) (Run.move (.arrive { id := 0 }) (Run.move (.hand 0)
      (Run.move (.arrive { id := 0 }) (Run.move (.await ⟨0, .serve⟩)
      (Run.move .listen Run.still trivial) ?_) ?_) trivial) ?_) trivial) trivial) ?_) trivial)
      ?_) ?_) trivial) ?_
    · exact ⟨rfl, rfl, rfl⟩
    · exact ⟨rfl, rfl⟩
    · exact ⟨rfl, rfl⟩
    · exact ⟨by decide, by decide⟩
    · exact ⟨by decide, by decide, by decide⟩
    · exact ⟨by decide, by decide⟩
    · exact ⟨by decide, by decide⟩
  have accepted : server.accepted = [1, 2] := by decide
  have closed : server.isOpen 1 = false := by decide
  have sent : (Move.stream 1 moves).sent = [0x50] := by decide
  obtain ⟨blocks, _, begins, whole, _, dispatcher, _⟩ := serves_serially fresh run
  have first := whole 1 (by simp [accepted]) closed (by simp [moves]) (by simp [moves])
  have second : Move.readFrom 2 moves = [0x07] := by decide
  rw [accepted, List.flatMap_cons, List.flatMap_singleton, first, second, sent] at blocks
  refine ⟨fresh, run, accepted, blocks, closed, first.trans sent, sent, by decide,
    begins 2 (by simp [accepted]), ?_⟩
  rw [dispatcher, blocks]
  decide

end SteeringChannel.Server
