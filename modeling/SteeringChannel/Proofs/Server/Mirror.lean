import SteeringChannel.Proofs.Server.Settled

/-!
Two servers that differ only by probes: connections that bring nothing, whose streams have ended
before they are read. Everything else is the same in both, but for the numbers of the connections,
and stays the same whatever is done at both of them.
-/

namespace SteeringChannel

def Connection.renumber (number : Nat → Nat) (connection : Connection) : Connection :=
  { connection with id := number connection.id }

def Handler.renumber (number : Nat → Nat) (handler : Handler) : Handler :=
  { handler with connection := number handler.connection }

structure Connection.Blind (change : Connection → Connection) : Prop where
  id : ∀ connection, (change connection).id = connection.id
  renumber : ∀ number connection,
    change (connection.renumber number) = (change connection).renumber number

namespace Connection

theorem blind_close : Blind close where
  id connection := close_id connection
  renumber number connection := by
    have opened : (connection.renumber number).isOpen = connection.isOpen := rfl
    simp only [close, opened]
    split <;> rfl

theorem blind_mark (standing : Standing) : Blind (fun connection => connection.mark standing) where
  id _ := rfl
  renumber _ _ := rfl

theorem blind_take (count : Nat) : Blind (fun connection => connection.take count) where
  id _ := rfl
  renumber _ _ := rfl

theorem blind_receive (bytes : List UInt8) :
    Blind (fun connection => connection.receive bytes) where
  id connection := receive_id connection bytes
  renumber number connection := by
    have opened : (connection.renumber number).isOpen = connection.isOpen := rfl
    have ending : (connection.renumber number).ending = connection.ending := rfl
    simp only [receive, opened, ending]
    split <;> rfl

theorem blind_finish (ending : Ending) : Blind (fun connection => connection.finish ending) where
  id connection := finish_id connection ending
  renumber number connection := by
    have opened : (connection.renumber number).isOpen = connection.isOpen := rfl
    simp only [finish, opened]
    split <;> rfl

theorem blind_discard : Blind discard where
  id connection := discard_id connection
  renumber number connection := by
    have standing : (connection.renumber number).standing = connection.standing := rfl
    simp only [discard, standing]
    split <;> rfl

end Connection

namespace Server

variable {σ : Type} {alike : Option σ → Option σ → Prop} {number : Nat → Nat}
  {probes : List Nat} {server other : Server σ} {now : Rat}

/-- The second server has the connections of the first one under other numbers, and besides them
these probes. What is asked of the outlets is left open. -/
structure Resembles (alike : Option σ → Option σ → Prop) (number : Nat → Nat) (probes : List Nat)
    (server other : Server σ) : Prop where
  path : other.path = server.path
  mode : other.mode = server.mode
  timeout : other.timeout = server.timeout
  rejecting : other.rejecting = server.rejecting
  listening : other.listening = server.listening
  stopped : other.stopped = server.stopped
  store : other.dispatcher.store = server.dispatcher.store
  outlet : alike server.dispatcher.outlet other.dispatcher.outlet
  connections : other.connections.filter (fun connection => connection.id ∉ probes) =
    server.connections.map (Connection.renumber number)
  queue : other.queue.filter (· ∉ probes) = server.queue.map number
  injective : ∀ first second, number first = number second → first = second
  spares : ∀ id, number id ∉ probes
  ahead : ∀ later, number (server.nextId + later) = other.nextId + later
  ended : ∀ connection ∈ other.connections, connection.id ∈ probes →
    connection.unread = [] ∧ connection.ending = some .finished
  known : ∀ id ∈ probes, id ∈ other.connections.map Connection.id

structure Mirrors (alike : Option σ → Option σ → Prop) (number : Nat → Nat) (probes : List Nat)
    (server other : Server σ) : Prop extends Resembles alike number probes server other where
  active : other.active = server.active.map number
  waiters : other.waiters = server.waiters
  handlers : other.handlers = server.handlers.map (Handler.renumber number)
  queued : ∀ id ∈ other.queue, id ∈ probes →
    other.rejecting = false ∧ other.isListening = true

theorem Resembles.isListening (resembles : Resembles alike number probes server other) :
    other.isListening = server.isListening := by
  simp only [Server.isListening, resembles.listening, resembles.stopped]

theorem Resembles.aside (resembles : Resembles alike number probes server other) {probe : Nat}
    (member : probe ∈ probes) {change : Connection → Connection}
    (kept : ∀ connection, (change connection).id = connection.id)
    (silent : ∀ connection, connection.unread = [] → (change connection).unread = [])
    (ends : ∀ connection, (change connection).ending = connection.ending) :
    Resembles alike number probes server (other.update probe change) := by
  have same (connection : Connection) :
      (if connection.id == probe then change connection else connection).id = connection.id := by
    split
    · exact kept connection
    · rfl
  refine { resembles with connections := ?_, ahead := ?_, ended := ?_, known := ?_ }
  · rw [← resembles.connections]
    simp only [Server.update, List.filter_map, Function.comp_def, same]
    refine (List.map_congr_left fun connection visible => ?_).trans (List.map_id _)
    have spared := of_decide_eq_true (List.mem_filter.mp visible).2
    have differs : (connection.id == probe) = false :=
      beq_eq_false_iff_ne.mpr fun found => spared (found ▸ member)
    rw [differs]
    rfl
  · simpa [Server.update, nextId] using resembles.ahead
  · intro connection present probed
    obtain ⟨before, there, rfl⟩ := List.mem_map.mp present
    rw [same] at probed
    obtain ⟨unread, ending⟩ := resembles.ended before there probed
    split
    · exact ⟨silent before unread, (ends before).trans ending⟩
    · exact ⟨unread, ending⟩
  · intro id listed
    obtain ⟨connection, present, rfl⟩ := List.mem_map.mp (resembles.known id listed)
    exact List.mem_map.mpr ⟨_, List.mem_map_of_mem present, same connection⟩

namespace Mirrors

variable (mirrors : Mirrors alike number probes server other)
include mirrors

theorem number_beq (first second : Nat) : (number first == number second) = (first == second) := by
  rw [Bool.eq_iff_iff, beq_iff_eq, beq_iff_eq]
  exact ⟨mirrors.injective first second, congrArg number⟩

theorem neverWaits : other.neverWaits = server.neverWaits := neverWaits_congr mirrors.timeout

theorem connection?_eq (id : Nat) :
    other.connection? (number id) = (server.connection? id).map (Connection.renumber number) := by
  have visible : other.connection? (number id) =
      (other.connections.filter fun connection => connection.id ∉ probes).find?
        fun connection => connection.id == number id := by
    rw [List.find?_filter]
    refine congrArg (List.find? · other.connections) (funext fun connection => ?_)
    by_cases same : connection.id = number id
    · simp [same, mirrors.spares]
    · simp [same]
  rw [visible, mirrors.connections, List.find?_map]
  refine congrArg (Option.map _) (congrArg (List.find? · server.connections) (funext ?_))
  exact fun connection => mirrors.number_beq connection.id id

theorem isOpen_eq (id : Nat) : other.isOpen (number id) = server.isOpen id := by
  simp only [Server.isOpen, mirrors.connection?_eq]
  cases server.connection? id <;> rfl

theorem handler?_eq (id : Nat) :
    other.handler? (number id) = (server.handler? id).map (Handler.renumber number) := by
  simp only [handler?, mirrors.handlers, List.find?_map]
  refine congrArg (Option.map _) (congrArg (List.find? · server.handlers) (funext ?_))
  exact fun handler => mirrors.number_beq handler.connection id

theorem update (id : Nat) {change : Connection → Connection} (blind : Connection.Blind change) :
    Mirrors alike number probes (server.update id change) (other.update (number id) change) := by
  have kept (target : Nat) (connection : Connection) :
      (if connection.id == target then change connection else connection).id = connection.id := by
    split
    · exact blind.id connection
    · rfl
  have unchanged {connection : Connection} (probe : connection.id ∈ probes) :
      (connection.id == number id) = false := by
    rw [beq_eq_false_iff_ne]
    rintro same
    exact mirrors.spares id (same ▸ probe)
  have connections : (other.update (number id) change).connections.filter
      (fun connection => connection.id ∉ probes) =
        (server.update id change).connections.map (Connection.renumber number) := by
    simp only [Server.update, List.filter_map, Function.comp_def, kept, mirrors.connections,
      List.map_map]
    refine List.map_congr_left fun connection _ => ?_
    have same : ((connection.renumber number).id == number id) = (connection.id == id) :=
      mirrors.number_beq connection.id id
    simp only [same]
    split
    · exact blind.renumber number connection
    · rfl
  refine { mirrors with connections := connections, ahead := ?_, ended := ?_, known := ?_ }
  · simpa [Server.update, nextId] using mirrors.ahead
  · intro connection member probe
    obtain ⟨before, present, rfl⟩ := List.mem_map.mp member
    rw [kept] at probe
    rw [unchanged probe]
    exact mirrors.ended before present probe
  · intro probe member
    obtain ⟨connection, present, rfl⟩ := List.mem_map.mp (mirrors.known probe member)
    exact List.mem_map.mpr ⟨_, List.mem_map_of_mem present, kept _ connection⟩

theorem dismiss (id : Nat) (record otherRecord : Journal.Record) :
    Mirrors alike number probes (server.dismiss id record)
      (other.dismiss (number id) otherRecord) :=
  { mirrors.update id Connection.blind_close with }

theorem release (id : Nat) :
    Mirrors alike number probes (server.release id) (other.release (number id)) := by
  refine { mirrors.update id (Connection.blind_mark .handled) with active := ?_, handlers := ?_ }
  · change (if other.active = some (number id) then none else other.active) =
      (if server.active = some id then none else server.active).map number
    rw [mirrors.active]
    cases active : server.active with
    | none => simp
    | some slot =>
        have same : number slot = number id ↔ slot = id :=
          ⟨mirrors.injective slot id, congrArg number⟩
        simp only [Option.map_some, Option.some.injEq, same]
        split <;> rfl
  · change other.handlers.filter (fun handler => handler.connection != number id) =
      (server.handlers.filter fun handler => handler.connection != id).map _
    rw [mirrors.handlers, List.filter_map]
    refine congrArg (List.map _) (congrArg (List.filter · server.handlers) (funext ?_))
    exact fun handler => congrArg not (mirrors.number_beq handler.connection id)

theorem await (waiter : Waiter) :
    Mirrors alike number probes (server.await waiter) (other.await waiter) := by
  simp only [Server.await, mirrors.isListening]
  split
  · exact { mirrors with waiters := congrArg (· ++ [waiter]) mirrors.waiters }
  · exact { mirrors with }

theorem leave (handler : Handler) :
    Mirrors alike number probes (server.leave handler)
      (other.leave (handler.renumber number)) := by
  have released := mirrors.release handler.connection
  simp only [Server.leave]
  by_cases repeats : handler.repeats = true
  · rw [if_pos repeats, if_pos (show (handler.renumber number).repeats = true from repeats)]
    exact released.await ⟨handler.task, .serve⟩
  · rw [if_neg repeats, if_neg (show ¬ (handler.renumber number).repeats = true from repeats)]
    exact { released with }

theorem endHandling (handler : Handler) (record otherRecord : Journal.Record) :
    Mirrors alike number probes (server.endHandling handler record)
      (other.endHandling (handler.renumber number) otherRecord) :=
  (mirrors.dismiss handler.connection record otherRecord).leave handler

theorem receive (id : Nat) (bytes : List UInt8) :
    Mirrors alike number probes (server.receive id bytes) (other.receive (number id) bytes) :=
  mirrors.update id (Connection.blind_receive bytes)

theorem finish (id : Nat) (ending : Ending) :
    Mirrors alike number probes (server.finish id ending) (other.finish (number id) ending) :=
  mirrors.update id (Connection.blind_finish ending)

end Mirrors

def Lasting [Outlet σ] (alike : Option σ → Option σ → Prop) : Prop :=
  ∀ first second raw, alike first second →
    alike (Dispatcher.passOn raw first).1 (Dispatcher.passOn raw second).1

theorem dispatchBytes_mirrors [Outlet σ] (lasting : Lasting alike) (bytes : List UInt8) :
    ∀ first second : Dispatcher σ, second.store = first.store →
      alike first.outlet second.outlet →
        (second.dispatchBytes bytes).1.store = (first.dispatchBytes bytes).1.store ∧
          alike (first.dispatchBytes bytes).1.outlet (second.dispatchBytes bytes).1.outlet := by
  induction bytes with
  | nil => exact fun _ _ store outlet => ⟨store, outlet⟩
  | cons byte rest ih =>
      intro first second store outlet
      refine ih (first.dispatchByte byte).1 (second.dispatchByte byte).1 ?_ ?_
      · exact congrArg (Store.apply · (Command.ofByte byte)) store
      · exact lasting first.outlet second.outlet byte.toNat outlet

section Reading

variable [Outlet σ] (mirrors : Mirrors alike number probes server other) (lasting : Lasting alike)
include mirrors lasting

theorem Mirrors.consume (now : Rat) (id : Nat) (bytes : List UInt8) :
    Mirrors alike number probes (server.consume now id bytes)
      (other.consume now (number id) bytes) := by
  obtain ⟨store, outlet⟩ := dispatchBytes_mirrors lasting bytes server.dispatcher
    other.dispatcher mirrors.store mirrors.outlet
  have handlers : (other.touch now (number id)).handlers =
      (server.touch now id).handlers.map (Handler.renumber number) := by
    simp only [touch, mirrors.handlers, List.map_map]
    refine List.map_congr_left fun handler _ => ?_
    have same : ((handler.renumber number).connection == number id) =
      (handler.connection == id) := mirrors.number_beq handler.connection id
    simp only [Function.comp_apply, same]
    split <;> rfl
  rw [consume_eq, consume_eq]
  refine { mirrors.update id (Connection.blind_take bytes.length) with
    store := store, outlet := outlet, handlers := ?_ }
  dsimp only
  split
  · exact mirrors.handlers
  · exact handlers

theorem Mirrors.read (now : Rat) (handler : Handler) :
    Mirrors alike number probes (server.read now handler)
      (other.read now (handler.renumber number)) := by
  have found : other.connection? (handler.renumber number).connection =
      (server.connection? handler.connection).map (Connection.renumber number) :=
    mirrors.connection?_eq handler.connection
  simp only [Server.read, found, mirrors.neverWaits]
  cases server.connection? handler.connection with
  | none => exact mirrors
  | some connection =>
      have consumed := mirrors.consume lasting now handler.connection connection.unread
      dsimp only [Option.map_some]
      split
      · exact mirrors.endHandling handler _ _
      · have ending : (connection.renumber number).ending = connection.ending := rfl
        rw [ending]
        cases connection.ending with
        | none => exact consumed
        | some ending => exact consumed.endHandling handler _ _

theorem Mirrors.readIfHandled (now : Rat) (id : Nat) :
    Mirrors alike number probes (server.readIfHandled now id)
      (other.readIfHandled now (number id)) := by
  simp only [Server.readIfHandled, mirrors.handler?_eq]
  cases server.handler? id with
  | none => exact mirrors
  | some handler => exact mirrors.read lasting now handler

end Reading

end Server
end SteeringChannel
