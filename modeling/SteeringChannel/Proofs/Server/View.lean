import SteeringChannel.Server

/-!
Connections by their number: what can be seen of one, and what the operations of a server do to
what can be seen.
-/

namespace SteeringChannel

namespace Connection

variable (connection : Connection)

@[simp] theorem close_id : connection.close.id = connection.id := by
  simp only [close]
  split <;> rfl

@[simp] theorem close_standing : connection.close.standing = connection.standing := by
  simp only [close]
  split <;> rfl

@[simp] theorem close_taken : connection.close.taken = connection.taken := by
  simp only [close]
  split <;> rfl

@[simp] theorem close_unread : connection.close.unread = connection.unread := by
  simp only [close]
  split <;> rfl

@[simp] theorem close_ending : connection.close.ending = connection.ending := by
  simp only [close]
  split <;> rfl

theorem close_closes (once : connection.closes ≤ 1) : connection.close.closes = 1 := by
  unfold close isOpen
  split
  next opened =>
    simp only [beq_iff_eq] at opened
    simp [opened]
  next closed =>
    simp only [beq_iff_eq] at closed
    omega

@[simp] theorem isOpen_close : connection.close.isOpen = false := by
  unfold close isOpen
  split
  next => simp
  next closed => simpa using closed

@[simp] theorem mark_id (standing : Standing) : (connection.mark standing).id = connection.id := rfl

@[simp] theorem mark_isOpen (standing : Standing) :
    (connection.mark standing).isOpen = connection.isOpen := rfl

@[simp] theorem mark_closes (standing : Standing) :
    (connection.mark standing).closes = connection.closes := rfl

@[simp] theorem take_id (count : Nat) : (connection.take count).id = connection.id := rfl

@[simp] theorem take_standing (count : Nat) :
    (connection.take count).standing = connection.standing := rfl

@[simp] theorem take_isOpen (count : Nat) :
    (connection.take count).isOpen = connection.isOpen := rfl

@[simp] theorem take_closes (count : Nat) :
    (connection.take count).closes = connection.closes := rfl

@[simp] theorem receive_id (bytes : List UInt8) :
    (connection.receive bytes).id = connection.id := by
  simp only [receive]
  split <;> rfl

@[simp] theorem receive_standing (bytes : List UInt8) :
    (connection.receive bytes).standing = connection.standing := by
  simp only [receive]
  split <;> rfl

@[simp] theorem receive_isOpen (bytes : List UInt8) :
    (connection.receive bytes).isOpen = connection.isOpen := by
  simp only [receive]
  split <;> rfl

@[simp] theorem receive_closes (bytes : List UInt8) :
    (connection.receive bytes).closes = connection.closes := by
  simp only [receive]
  split <;> rfl

@[simp] theorem receive_taken (bytes : List UInt8) :
    (connection.receive bytes).taken = connection.taken := by
  simp only [receive]
  split <;> rfl

@[simp] theorem receive_ending (bytes : List UInt8) :
    (connection.receive bytes).ending = connection.ending := by
  simp only [receive]
  split <;> rfl

@[simp] theorem finish_id (ending : Ending) : (connection.finish ending).id = connection.id := by
  simp only [finish]
  split <;> rfl

@[simp] theorem finish_standing (ending : Ending) :
    (connection.finish ending).standing = connection.standing := by
  simp only [finish]
  split <;> rfl

@[simp] theorem finish_isOpen (ending : Ending) :
    (connection.finish ending).isOpen = connection.isOpen := by
  simp only [finish]
  split <;> rfl

@[simp] theorem finish_closes (ending : Ending) :
    (connection.finish ending).closes = connection.closes := by
  simp only [finish]
  split <;> rfl

@[simp] theorem finish_taken (ending : Ending) :
    (connection.finish ending).taken = connection.taken := by
  simp only [finish]
  split <;> rfl

@[simp] theorem finish_unread (ending : Ending) :
    (connection.finish ending).unread = connection.unread := by
  simp only [finish]
  split <;> rfl

@[simp] theorem discard_id : connection.discard.id = connection.id := by
  simp only [discard]
  split <;> rfl

@[simp] theorem discard_isOpen : connection.discard.isOpen = connection.isOpen := by
  simp only [discard]
  split <;> rfl

@[simp] theorem discard_closes : connection.discard.closes = connection.closes := by
  simp only [discard]
  split <;> rfl

@[simp] theorem discard_taken : connection.discard.taken = connection.taken := by
  simp only [discard]
  split <;> rfl

@[simp] theorem discard_unread : connection.discard.unread = connection.unread := by
  simp only [discard]
  split <;> rfl

@[simp] theorem discard_ending : connection.discard.ending = connection.ending := by
  simp only [discard]
  split <;> rfl

end Connection

namespace Server

variable {σ : Type} (server : Server σ)

def standing? (id : Nat) : Option Standing := (server.connection? id).map Connection.standing

def taken (id : Nat) : List UInt8 := ((server.connection? id).map Connection.taken).getD []

def unread (id : Nat) : List UInt8 := ((server.connection? id).map Connection.unread).getD []

def ending? (id : Nat) : Option Ending := (server.connection? id).bind Connection.ending

theorem isOpen_eq (id : Nat) :
    server.isOpen id = ((server.connection? id).map Connection.isOpen).getD false := by
  simp only [isOpen]
  cases server.connection? id <;> rfl

def Numbered : Prop :=
  server.connections.map Connection.id = List.range' 1 server.connections.length

theorem id_of_connection? {id : Nat} {connection : Connection}
    (found : server.connection? id = some connection) : connection.id = id := by
  simpa using List.find?_some found

theorem mem_of_connection? {id : Nat} {connection : Connection}
    (found : server.connection? id = some connection) : connection ∈ server.connections :=
  List.mem_of_find?_eq_some found

theorem find?_of_nodup {connections : List Connection} {connection : Connection}
    (distinct : (connections.map Connection.id).Nodup) (member : connection ∈ connections) :
    connections.find? (fun other => other.id == connection.id) = some connection := by
  induction connections with
  | nil => simp at member
  | cons first rest ih =>
      simp only [List.map_cons, List.nodup_cons, List.mem_map, not_exists, not_and] at distinct
      rcases List.mem_cons.mp member with same | later
      · subst same
        simp
      · have different : first.id ≠ connection.id := fun same =>
          distinct.1 connection later same.symm
        simp [different, ih distinct.2 later]

variable {server}

theorem Numbered.connection?_of_mem (numbered : server.Numbered) {connection : Connection}
    (member : connection ∈ server.connections) :
    server.connection? connection.id = some connection := by
  apply find?_of_nodup _ member
  rw [show server.connections.map Connection.id = _ from numbered]
  exact List.nodup_range'

theorem Numbered.bounds (numbered : server.Numbered) {id : Nat} {connection : Connection}
    (found : server.connection? id = some connection) : 1 ≤ id ∧ id < server.nextId := by
  have member : id ∈ server.connections.map Connection.id :=
    List.mem_map.mpr ⟨connection, server.mem_of_connection? found, server.id_of_connection? found⟩
  rw [show server.connections.map Connection.id = _ from numbered, List.mem_range'_1] at member
  simp only [nextId]
  omega

theorem Numbered.connection?_nextId (numbered : server.Numbered) :
    server.connection? server.nextId = none := by
  cases found : server.connection? server.nextId with
  | none => rfl
  | some connection =>
      have bounds := numbered.bounds found
      omega

variable (server)

section Update

variable {change : Connection → Connection} (keepsId : ∀ connection, (change connection).id = connection.id)
include keepsId

theorem connection?_update (id other : Nat) :
    (server.update id change).connection? other =
      if other = id then (server.connection? other).map change else server.connection? other := by
  simp only [connection?, update]
  rw [List.find?_map]
  have same : (fun connection => connection.id == other) ∘
      (fun connection => if connection.id == id then change connection else connection) =
        fun connection => connection.id == other := by
    funext connection
    simp only [Function.comp]
    split <;> simp [keepsId]
  rw [same]
  cases found : server.connections.find? fun connection => connection.id == other with
  | none => simp
  | some connection =>
      have number : connection.id = other := by simpa using List.find?_some found
      by_cases matched : other = id <;> simp [number, matched]

theorem numbered_update (id : Nat) (numbered : server.Numbered) :
    (server.update id change).Numbered := by
  have same : (server.update id change).connections.map Connection.id =
      server.connections.map Connection.id := by
    simp only [update, List.map_map]
    apply List.map_congr_left
    intro connection _
    simp only [Function.comp]
    split <;> simp [keepsId]
  unfold Numbered at numbered ⊢
  rw [same, numbered]
  simp [update]

theorem standing?_update (keeps : ∀ connection, (change connection).standing = connection.standing)
    (id other : Nat) : (server.update id change).standing? other = server.standing? other := by
  simp only [standing?]
  rw [connection?_update server keepsId]
  split <;> simp [Function.comp_def, keeps]

theorem standing?_update_const {standing : Standing}
    (becomes : ∀ connection, (change connection).standing = standing) (id other : Nat) :
    (server.update id change).standing? other =
      if other = id then (server.standing? other).map fun _ => standing
      else server.standing? other := by
  simp only [standing?]
  rw [connection?_update server keepsId]
  split <;> simp [Function.comp_def, becomes]

theorem isOpen_update (keeps : ∀ connection, (change connection).isOpen = connection.isOpen)
    (id other : Nat) : (server.update id change).isOpen other = server.isOpen other := by
  rw [isOpen_eq, isOpen_eq, connection?_update server keepsId]
  split <;> simp [Function.comp_def, keeps]

theorem taken_update (keeps : ∀ connection, (change connection).taken = connection.taken)
    (id other : Nat) : (server.update id change).taken other = server.taken other := by
  simp only [taken]
  rw [connection?_update server keepsId]
  split <;> simp [Function.comp_def, keeps]

theorem unread_update (keeps : ∀ connection, (change connection).unread = connection.unread)
    (id other : Nat) : (server.update id change).unread other = server.unread other := by
  simp only [unread]
  rw [connection?_update server keepsId]
  split <;> simp [Function.comp_def, keeps]

theorem ending?_update (keeps : ∀ connection, (change connection).ending = connection.ending)
    (id other : Nat) : (server.update id change).ending? other = server.ending? other := by
  simp only [ending?]
  rw [connection?_update server keepsId]
  split
  · have same : Connection.ending ∘ change = Connection.ending := funext keeps
    rw [Option.bind_map, same]
  · rfl

end Update

/-! Closing a connection. -/

section Close

variable (id other : Nat)

@[simp] theorem standing?_shut : (server.shut id).standing? other = server.standing? other :=
  server.standing?_update Connection.close_id Connection.close_standing id other

@[simp] theorem taken_shut : (server.shut id).taken other = server.taken other :=
  server.taken_update Connection.close_id Connection.close_taken id other

@[simp] theorem unread_shut : (server.shut id).unread other = server.unread other :=
  server.unread_update Connection.close_id Connection.close_unread id other

@[simp] theorem ending?_shut : (server.shut id).ending? other = server.ending? other :=
  server.ending?_update Connection.close_id Connection.close_ending id other

theorem isOpen_shut :
    (server.shut id).isOpen other = if other = id then false else server.isOpen other := by
  have found : (server.shut id).connection? other =
      if other = id then (server.connection? other).map Connection.close
      else server.connection? other := server.connection?_update Connection.close_id id other
  rw [isOpen_eq, isOpen_eq, found]
  split
  next => cases server.connection? other <;> simp
  next => rfl

@[simp] theorem standing?_dismiss (record : Journal.Record) :
    (server.dismiss id record).standing? other = server.standing? other :=
  standing?_shut _ id other

@[simp] theorem taken_dismiss (record : Journal.Record) :
    (server.dismiss id record).taken other = server.taken other :=
  taken_shut _ id other

@[simp] theorem unread_dismiss (record : Journal.Record) :
    (server.dismiss id record).unread other = server.unread other :=
  unread_shut _ id other

@[simp] theorem ending?_dismiss (record : Journal.Record) :
    (server.dismiss id record).ending? other = server.ending? other :=
  ending?_shut _ id other

theorem isOpen_dismiss (record : Journal.Record) :
    (server.dismiss id record).isOpen other = if other = id then false else server.isOpen other :=
  isOpen_shut _ id other

end Close

theorem standing?_release (id other : Nat) :
    (server.release id).standing? other =
      if other = id then (server.standing? other).map fun _ => .handled
      else server.standing? other :=
  server.standing?_update_const (fun _ => Connection.mark_id _ .handled) (fun _ => rfl) id other

@[simp] theorem isOpen_release (id other : Nat) :
    (server.release id).isOpen other = server.isOpen other :=
  server.isOpen_update (fun _ => Connection.mark_id _ .handled) (fun _ => rfl) id other

@[simp] theorem taken_release (id other : Nat) :
    (server.release id).taken other = server.taken other :=
  server.taken_update (fun _ => Connection.mark_id _ .handled) (fun _ => rfl) id other

@[simp] theorem unread_release (id other : Nat) :
    (server.release id).unread other = server.unread other :=
  server.unread_update (fun _ => Connection.mark_id _ .handled) (fun _ => rfl) id other

@[simp] theorem ending?_release (id other : Nat) :
    (server.release id).ending? other = server.ending? other :=
  server.ending?_update (fun _ => Connection.mark_id _ .handled) (fun _ => rfl) id other

section Hand

variable (now : Rat) (waiter : Waiter) (id other : Nat)

theorem standing?_hand :
    (server.hand now waiter id).standing? other =
      if other = id then (server.standing? other).map fun _ => .handed
      else server.standing? other :=
  server.standing?_update_const (fun _ => Connection.mark_id _ .handed) (fun _ => rfl) id other

@[simp] theorem isOpen_hand : (server.hand now waiter id).isOpen other = server.isOpen other :=
  server.isOpen_update (fun _ => Connection.mark_id _ .handed) (fun _ => rfl) id other

@[simp] theorem taken_hand : (server.hand now waiter id).taken other = server.taken other :=
  server.taken_update (fun _ => Connection.mark_id _ .handed) (fun _ => rfl) id other

@[simp] theorem unread_hand : (server.hand now waiter id).unread other = server.unread other :=
  server.unread_update (fun _ => Connection.mark_id _ .handed) (fun _ => rfl) id other

@[simp] theorem ending?_hand : (server.hand now waiter id).ending? other = server.ending? other :=
  server.ending?_update (fun _ => Connection.mark_id _ .handed) (fun _ => rfl) id other

end Hand

section Receive

variable (id other : Nat) (bytes : List UInt8)

@[simp] theorem standing?_receive :
    (server.receive id bytes).standing? other = server.standing? other :=
  server.standing?_update (fun _ => Connection.receive_id _ _)
    (fun _ => Connection.receive_standing _ _) id other

@[simp] theorem isOpen_receive :
    (server.receive id bytes).isOpen other = server.isOpen other :=
  server.isOpen_update (fun _ => Connection.receive_id _ _)
    (fun _ => Connection.receive_isOpen _ _) id other

@[simp] theorem taken_receive : (server.receive id bytes).taken other = server.taken other :=
  server.taken_update (fun _ => Connection.receive_id _ _)
    (fun _ => Connection.receive_taken _ _) id other

@[simp] theorem ending?_receive :
    (server.receive id bytes).ending? other = server.ending? other :=
  server.ending?_update (fun _ => Connection.receive_id _ _)
    (fun _ => Connection.receive_ending _ _) id other

theorem unread_receive :
    (server.receive id bytes).unread other =
      if other = id ∧ server.isOpen id = true ∧ server.ending? id = none then
        server.unread other ++ bytes
      else server.unread other := by
  simp only [unread, receive]
  rw [connection?_update server fun _ => Connection.receive_id _ _]
  by_cases same : other = id
  · subst same
    rw [isOpen_eq, ending?]
    cases server.connection? other with
    | none => simp
    | some connection =>
        by_cases opened : connection.isOpen = true <;>
          by_cases ended : connection.ending = none <;>
            simp [Connection.receive, opened, ended]
  · simp [same]

end Receive

section Finish

variable (id other : Nat) (ending : Ending)

@[simp] theorem standing?_finish :
    (server.finish id ending).standing? other = server.standing? other :=
  server.standing?_update (fun _ => Connection.finish_id _ _)
    (fun _ => Connection.finish_standing _ _) id other

@[simp] theorem isOpen_finish :
    (server.finish id ending).isOpen other = server.isOpen other :=
  server.isOpen_update (fun _ => Connection.finish_id _ _)
    (fun _ => Connection.finish_isOpen _ _) id other

@[simp] theorem taken_finish : (server.finish id ending).taken other = server.taken other :=
  server.taken_update (fun _ => Connection.finish_id _ _)
    (fun _ => Connection.finish_taken _ _) id other

@[simp] theorem unread_finish : (server.finish id ending).unread other = server.unread other :=
  server.unread_update (fun _ => Connection.finish_id _ _)
    (fun _ => Connection.finish_unread _ _) id other

theorem ending?_finish :
    (server.finish id ending).ending? other =
      if other = id ∧ server.isOpen id = true then server.ending? other <|> some ending
      else server.ending? other := by
  simp only [ending?, finish]
  rw [connection?_update server fun _ => Connection.finish_id _ _]
  by_cases same : other = id
  · subst same
    rw [isOpen_eq]
    cases server.connection? other with
    | none => simp
    | some connection =>
        by_cases opened : connection.isOpen = true <;> simp [Connection.finish, opened]
  · simp [same]

end Finish

/-! Dispatching. -/

section Consume

variable [Outlet σ] (now : Rat) (id other : Nat) (bytes : List UInt8)

theorem consume_eq :
    server.consume now id bytes =
      { server.update id (fun connection => connection.take bytes.length) with
        dispatcher := (server.dispatcher.dispatchBytes bytes).1
        records := server.records ++ (server.dispatcher.dispatchBytes bytes).2
        handlers := if bytes.isEmpty then server.handlers else (server.touch now id).handlers } := by
  simp only [consume]
  cases bytes <;> rfl

@[simp] theorem standing?_consume :
    (server.consume now id bytes).standing? other = server.standing? other := by
  rw [consume_eq]
  exact server.standing?_update (fun _ => Connection.take_id _ _) (fun _ => rfl) id other

@[simp] theorem isOpen_consume :
    (server.consume now id bytes).isOpen other = server.isOpen other := by
  rw [consume_eq]
  exact server.isOpen_update (fun _ => Connection.take_id _ _) (fun _ => rfl) id other

@[simp] theorem ending?_consume :
    (server.consume now id bytes).ending? other = server.ending? other := by
  rw [consume_eq]
  exact server.ending?_update (fun _ => Connection.take_id _ _) (fun _ => rfl) id other

theorem connection?_consume :
    (server.consume now id bytes).connection? other =
      if other = id then (server.connection? other).map fun connection =>
        connection.take bytes.length
      else server.connection? other := by
  rw [consume_eq]
  exact server.connection?_update (fun _ => Connection.take_id _ _) id other

theorem taken_consume (arrived : bytes <+: server.unread id) :
    (server.consume now id bytes).taken other =
      if other = id then server.taken other ++ bytes else server.taken other := by
  unfold taken unread at *
  rw [connection?_consume]
  by_cases same : other = id
  · subst same
    cases found : server.connection? other with
    | none =>
        rw [found] at arrived
        simp_all
    | some connection =>
        rw [found] at arrived
        simp only [Option.map_some, Option.getD_some, if_true, Connection.take] at arrived ⊢
        rw [← List.prefix_iff_eq_take.mp arrived]
  · simp [same]

theorem unread_consume :
    (server.consume now id bytes).unread other =
      if other = id then (server.unread other).drop bytes.length else server.unread other := by
  simp only [unread]
  rw [connection?_consume]
  by_cases same : other = id
  · subst same
    cases server.connection? other <;> simp [Connection.take]
  · simp [same]

theorem connections_consume_handlers :
    (server.consume now id bytes).handlers.map Handler.connection =
      server.handlers.map Handler.connection := by
  rw [consume_eq]
  cases bytes with
  | nil => rfl
  | cons byte rest =>
      simp only [List.isEmpty_cons, Bool.false_eq_true, if_false, touch, List.map_map]
      apply List.map_congr_left
      intro handler _
      simp only [Function.comp]
      split <;> rfl

end Consume

section Register

variable {server} (numbered : server.Numbered) (arrival : Connection)
include numbered

theorem numbered_append {connection : Connection} (next : connection.id = server.nextId) :
    (server.connections ++ [connection]).map Connection.id =
      List.range' 1 (server.connections ++ [connection]).length := by
  rw [List.map_append, show server.connections.map Connection.id = _ from numbered,
    List.length_append, List.length_singleton, List.range'_1_concat]
  simp only [List.map_singleton, next, nextId, Nat.add_comm]

theorem find?_append {connection : Connection} (next : connection.id = server.nextId) (id : Nat) :
    (server.connections ++ [connection]).find? (fun other => other.id == id) =
      if id = server.nextId then some connection else server.connection? id := by
  rw [List.find?_append]
  by_cases same : id = server.nextId
  · subst same
    have absent := numbered.connection?_nextId
    unfold connection? at absent
    simp [absent, next]
  · have different : connection.id ≠ id := by omega
    simp [same, different, connection?]

theorem numbered_register : (server.register arrival).Numbered := by
  simp only [register]
  split
  next => exact numbered_append numbered rfl
  next => exact numbered_append numbered (Connection.close_id _)

theorem connection?_register (id : Nat) :
    (server.register arrival).connection? id =
      if id = server.nextId then
        let connection := { arrival with id := server.nextId, standing := server.fate }
        some (if server.fate = .queued then connection else connection.close)
      else server.connection? id := by
  simp only [register]
  split
  next => exact find?_append numbered rfl id
  next => exact find?_append numbered (Connection.close_id _) id

theorem standing?_register (id : Nat) :
    (server.register arrival).standing? id =
      if id = server.nextId then some server.fate else server.standing? id := by
  simp only [standing?]
  rw [connection?_register numbered]
  split
  next => by_cases admitted : server.fate = .queued <;> simp [admitted]
  next => rfl

theorem isOpen_register (fresh : arrival.closes = 0) (id : Nat) :
    (server.register arrival).isOpen id =
      if id = server.nextId then decide (server.fate = .queued) else server.isOpen id := by
  rw [isOpen_eq, isOpen_eq, connection?_register numbered]
  split
  next =>
    by_cases admitted : server.fate = .queued
    · simp [admitted, Connection.isOpen, fresh]
    · simp [admitted]
  next => rfl

theorem taken_register (id : Nat) :
    (server.register arrival).taken id =
      if id = server.nextId then arrival.taken else server.taken id := by
  simp only [taken]
  rw [connection?_register numbered]
  split
  next => by_cases admitted : server.fate = .queued <;> simp [admitted]
  next => rfl

theorem unread_register (id : Nat) :
    (server.register arrival).unread id =
      if id = server.nextId then arrival.unread else server.unread id := by
  simp only [unread]
  rw [connection?_register numbered]
  split
  next => by_cases admitted : server.fate = .queued <;> simp [admitted]
  next => rfl

theorem ending?_register (id : Nat) :
    (server.register arrival).ending? id =
      if id = server.nextId then arrival.ending else server.ending? id := by
  simp only [ending?]
  rw [connection?_register numbered]
  split
  next => by_cases admitted : server.fate = .queued <;> simp [admitted]
  next => rfl

end Register

section RegisterFields

variable (arrival : Connection)

theorem queue_register :
    (server.register arrival).queue =
      if server.fate = .queued then server.queue ++ [server.nextId] else server.queue := by
  simp only [register]
  split <;> rfl

theorem active_register :
    (server.register arrival).active =
      if server.fate = .queued ∧ server.rejecting = true then some server.nextId
      else server.active := by
  simp only [register]
  by_cases admitted : server.fate = .queued <;>
    by_cases rejecting : server.rejecting = true <;> simp [admitted, rejecting]

@[simp] theorem accepted_register : (server.register arrival).accepted = server.accepted := by
  simp only [register]
  split <;> rfl

@[simp] theorem served_register : (server.register arrival).served = server.served := by
  simp only [register]
  split <;> rfl

@[simp] theorem waiters_register : (server.register arrival).waiters = server.waiters := by
  simp only [register]
  split <;> rfl

@[simp] theorem handlers_register : (server.register arrival).handlers = server.handlers := by
  simp only [register]
  split <;> rfl

@[simp] theorem dispatcher_register :
    (server.register arrival).dispatcher = server.dispatcher := by
  simp only [register]
  split <;> rfl

@[simp] theorem stopped_register : (server.register arrival).stopped = server.stopped := by
  simp only [register]
  split <;> rfl

@[simp] theorem listening_register :
    (server.register arrival).listening = server.listening := by
  simp only [register]
  split <;> rfl

@[simp] theorem rejecting_register :
    (server.register arrival).rejecting = server.rejecting := by
  simp only [register]
  split <;> rfl

@[simp] theorem timeout_register : (server.register arrival).timeout = server.timeout := by
  simp only [register]
  split <;> rfl

end RegisterFields

theorem fate_of_stopped (stopped : server.stopped = true) : server.fate = .turnedAway := by
  simp [fate, stopped]

theorem fate_cases : server.fate = .turnedAway ∧ server.stopped = true ∨
    server.fate = .rejected ∧ server.stopped = false ∧ server.rejecting = true ∧
      (∃ id, server.active = some id) ∨
    server.fate = .queued ∧ server.stopped = false ∧
      (server.rejecting = false ∨ server.active = none) := by
  simp only [fate]
  by_cases stopped : server.stopped = true
  · simp [stopped]
  · cases rejecting : server.rejecting <;> cases active : server.active <;> simp [stopped]

/-! Waiting and leaving concern tasks and the journal. -/

theorem await_shape (waiter : Waiter) : ∃ waiters records finished,
    server.await waiter =
      { server with waiters := waiters, records := records, finished := finished } := by
  simp only [await]
  split
  next => exact ⟨_, _, _, rfl⟩
  next => exact ⟨_, _, _, rfl⟩

theorem waiters_await (waiter : Waiter) :
    (server.await waiter).waiters =
      if server.isListening then server.waiters ++ [waiter] else server.waiters := by
  simp only [await]
  split <;> rfl

theorem leave_shape (handler : Handler) : ∃ waiters records finished,
    server.leave handler =
      { server.release handler.connection with
        waiters := waiters, records := records, finished := finished } := by
  simp only [leave]
  split
  next => exact await_shape _ _
  next => exact ⟨_, _, _, rfl⟩

theorem queue_leave (handler : Handler) : (server.leave handler).queue = server.queue := by
  obtain ⟨waiters, records, finished, shape⟩ := server.leave_shape handler
  rw [shape]
  rfl

theorem stopped_leave (handler : Handler) : (server.leave handler).stopped = server.stopped := by
  obtain ⟨waiters, records, finished, shape⟩ := server.leave_shape handler
  rw [shape]
  rfl

theorem handlers_leave (handler : Handler) :
    (server.leave handler).handlers =
      server.handlers.filter fun other => other.connection != handler.connection := by
  obtain ⟨waiters, records, finished, shape⟩ := server.leave_shape handler
  rw [shape]
  rfl

theorem waiters_leave (handler : Handler) :
    (server.leave handler).waiters =
      if handler.repeats ∧ server.isListening then server.waiters ++ [⟨handler.task, .serve⟩]
      else server.waiters := by
  simp only [leave]
  by_cases repeats : handler.repeats = true
  · simp only [repeats, if_true, waiters_await, true_and]
    rfl
  · rw [if_neg repeats, if_neg fun both => repeats both.1]
    rfl

theorem connection?_drain (id : Nat) :
    server.drain.connection? id = (server.connection? id).map Connection.discard := by
  simp only [connection?, drain]
  rw [List.find?_map]
  congr 2
  funext connection
  simp

theorem numbered_drain (numbered : server.Numbered) : server.drain.Numbered := by
  have same : server.drain.connections.map Connection.id =
      server.connections.map Connection.id := by
    simp only [drain, List.map_map]
    apply List.map_congr_left
    intro connection _
    simp
  unfold Numbered at numbered ⊢
  rw [same, numbered]
  simp [drain]

theorem standing?_drain (id : Nat) :
    server.drain.standing? id =
      (server.standing? id).map fun standing =>
        if standing = .queued then .discarded else standing := by
  simp only [standing?]
  rw [connection?_drain, Option.map_map, Option.map_map]
  congr 1
  funext connection
  simp only [Function.comp, Connection.discard]
  split <;> simp_all [Connection.mark]

@[simp] theorem isOpen_drain (id : Nat) : server.drain.isOpen id = server.isOpen id := by
  rw [isOpen_eq, isOpen_eq, connection?_drain]
  cases server.connection? id <;> simp

@[simp] theorem taken_drain (id : Nat) : server.drain.taken id = server.taken id := by
  simp only [taken]
  rw [connection?_drain]
  cases server.connection? id <;> simp

@[simp] theorem unread_drain (id : Nat) : server.drain.unread id = server.unread id := by
  simp only [unread]
  rw [connection?_drain]
  cases server.connection? id <;> simp

@[simp] theorem ending?_drain (id : Nat) : server.drain.ending? id = server.ending? id := by
  simp only [ending?]
  rw [connection?_drain]
  cases server.connection? id <;> simp

end Server
end SteeringChannel
