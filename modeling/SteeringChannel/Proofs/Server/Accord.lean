import Mathlib.Data.List.Perm.Subperm
import SteeringChannel.Proofs.Server.Probe
import SteeringChannel.Proofs.Server.Stopped

/-!
Operations at two servers that differ only by probes. Done at both of them, an operation leaves
them as alike as it has found them; it may do so a moment later where a client goes on before the
server has settled, because the second server still has probes in its line then.
-/

namespace SteeringChannel.Server

variable {σ : Type} [Outlet σ] {alike : Option σ → Option σ → Prop} {number : Nat → Nat}
  {probes : List Nat} {server other : Server σ} {now : Rat}

theorem Solo.after (solo : server.Solo) {moves : List Move} (run : Run alone server moves other) :
    other.Solo := by
  obtain ⟨first, _, fresh, began⟩ := solo
  exact ⟨first, _, fresh, began.trans run⟩

theorem run_endStream (server : Server σ) (now : Rat) (id : Nat) :
    ∃ moves, Run alone server moves (server.endStream now id .finished) := by
  obtain ⟨_, rest⟩ := (server.works_endStream now id).alone
  split at rest
  · exact ⟨_, (Run.one (.finish id .finished) trivial).trans rest⟩
  · exact ⟨_, rest⟩

section Operations

variable (mirrors : Mirrors alike number probes server other) (solo : server.Solo)
  (lasting : Lasting alike)
include mirrors

omit [Outlet σ] in
theorem Mirrors.reported : Mirrors alike number probes server.reported other.reported :=
  { mirrors with }

omit [Outlet σ] in
theorem Mirrors.listen : Mirrors alike number probes server.listen other.listen := by
  refine { mirrors with listening := rfl, queued := fun id member probe => ?_ }
  obtain ⟨queueing, listening⟩ := mirrors.queued id member probe
  simp only [Server.isListening, Bool.and_eq_true] at listening
  exact ⟨queueing, by simpa [Server.isListening, Server.listen] using listening.2⟩

include lasting

theorem Mirrors.endStream (now : Rat) (id : Nat) (ending : Ending) :
    Mirrors alike number probes (server.endStream now id ending)
      (other.endStream now (number id) ending) := by
  simp only [Server.endStream, mirrors.isOpen_eq]
  split
  · exact (mirrors.finish id ending).readIfHandled lasting now id
  · exact mirrors

include solo

omit mirrors lasting in
theorem Solo.endStream (now : Rat) (id : Nat) : (server.endStream now id .finished).Solo := by
  obtain ⟨_, run⟩ := server.run_endStream now id
  exact solo.after run

theorem Mirrors.deliver (now : Rat) (id : Nat) (bytes : List UInt8) :
    Mirrors alike number probes (server.deliver now id bytes)
      (other.deliver now (number id) bytes) := by
  simp only [Server.deliver, mirrors.isOpen_eq]
  split
  · refine ((mirrors.receive id bytes).readIfHandled lasting now id).settle ?_ lasting now
    exact (solo.one (.receive id bytes) trivial).works (works_readIfHandled _ now id)
  · exact mirrors

theorem Mirrors.hangUp (now : Rat) (id : Nat) :
    Mirrors alike number probes (server.hangUp now id .finished)
      (other.hangUp now (number id) .finished) :=
  (mirrors.endStream lasting now id .finished).settle (solo.endStream now id) lasting now

theorem Mirrors.startTask {task : Nat} {duty : Duty} (starts : server.alone ⟨task, duty⟩) :
    Mirrors alike number probes (server.startTask now task duty)
      (other.startTask now task duty) :=
  (mirrors.await ⟨task, duty⟩).settle (solo.one (.await ⟨task, duty⟩) starts) lasting now

theorem Mirrors.expire {handler : Handler} (present : handler ∈ server.handlers)
    (due : server.isDue now handler = true) :
    Mirrors alike number probes (server.expire now handler)
      (other.expire now (handler.renumber number)) := by
  let record := server.idleRecord handler.connection
  have closed := mirrors.dismiss handler.connection record (other.idleRecord (number handler.connection))
  have given : (server.dismiss handler.connection record).Solo :=
    solo.one (.giveUp now handler.connection) ⟨handler, present, rfl, Or.inr due⟩
  have found : other.connection? (handler.renumber number).connection =
      (server.connection? handler.connection).map (Connection.renumber number) :=
    mirrors.connection?_eq handler.connection
  simp only [Server.expire, found]
  cases server.connection? handler.connection with
  | none => exact closed
  | some connection =>
      have scripted : (connection.renumber number).scripted = connection.scripted := rfl
      dsimp only [Option.map_some]
      rw [scripted]
      split
      · refine (closed.leave handler).settle (given.one (.leave handler) ⟨present, ?_⟩) lasting now
        exact (isOpen_dismiss server handler.connection _ record).trans (if_pos rfl)
      · exact closed

theorem Mirrors.leaveExpired {handler : Handler}
    (closed : handler ∈ server.handlers → server.isOpen handler.connection = false) :
    Mirrors alike number probes (server.leaveExpired now handler)
      (other.leaveExpired now (handler.renumber number)) := by
  have reads : other.handlers.contains (handler.renumber number) = server.handlers.contains handler := by
    rw [mirrors.handlers, Bool.eq_iff_iff, List.contains_iff_mem, List.contains_iff_mem]
    refine List.mem_map_of_injective fun first second same => ?_
    simp only [Handler.renumber, Handler.mk.injEq] at same
    obtain ⟨task, repeats, connection, since⟩ := same
    have equal := mirrors.injective _ _ connection
    cases first
    cases second
    simp_all
  simp only [Server.leaveExpired, reads]
  split
  next present =>
    have member := List.contains_iff_mem.mp present
    exact (mirrors.leave handler).settle (solo.one (.leave handler) ⟨member, closed member⟩)
      lasting now
  next => exact mirrors

theorem Mirrors.advance {due : List Handler}
    (late : due.Perm (server.handlers.filter (server.isDue now))) :
    Mirrors alike number probes ((server.expireAll now due).leaveAll now due)
      ((other.expireAll now (due.map (Handler.renumber number))).leaveAll now
        (due.map (Handler.renumber number))) := by
  have few : due.length ≤ 1 := by
    have single := solo.looped.single
    have fewer := List.length_filter_le (server.isDue now) server.handlers
    rw [late.length_eq]
    omega
  cases due with
  | nil => exact mirrors
  | cons handler rest =>
      obtain rfl : rest = [] := List.length_eq_zero_iff.mp (by simpa using few)
      obtain ⟨present, expires⟩ := List.mem_filter.mp (late.subset List.mem_cons_self)
      have expired := (mirrors.expire solo lasting present expires).reported
      have goes := solo.works (works_expire present expires)
      refine (expired.leaveExpired (goes.one .report trivial) lasting fun _ => ?_).reported
      exact (isOpen_expire solo.coherent present now).2

end Operations

section Stop

omit [Outlet σ]

theorem foldl_shut_shape (ids : List Nat) (server : Server σ) : ∃ finished,
    ids.foldl shut server = { server with
      connections := server.connections.map fun connection =>
        if connection.id ∈ ids then connection.close else connection
      finished := finished } := by
  induction ids generalizing server with
  | nil => exact ⟨server.finished, by simp⟩
  | cons first rest ih =>
      obtain ⟨finished, shape⟩ := ih (server.shut first)
      refine ⟨finished, ?_⟩
      rw [List.foldl_cons, shape]
      have connections : (server.shut first).connections.map (fun connection =>
          if connection.id ∈ rest then connection.close else connection) =
            server.connections.map fun connection =>
              if connection.id ∈ first :: rest then connection.close else connection := by
        simp only [shut, update, List.map_map]
        refine List.map_congr_left fun connection _ => ?_
        have again : connection.close.close = connection.close :=
          if_neg (by simp [Connection.isOpen_close])
        simp only [Function.comp_apply, beq_iff_eq, List.mem_cons]
        by_cases here : connection.id = first <;> by_cases later : connection.id ∈ rest <;>
          simp [here, later, again]
      rw [connections]
      rfl

theorem halt_shape (server : Server σ) : ∃ finished, server.halt = { server with
    stopped := true, listening := false, queue := [], waiters := server.waiters.tail
    connections := server.connections.map fun connection => connection.close.discard
    finished := finished } := by
  obtain ⟨finished, shape⟩ := foldl_shut_shape server.openIds server.beginStop
  refine ⟨finished, ?_⟩
  rw [halt, shape]
  have connections : (server.connections.map fun connection =>
      if connection.id ∈ server.openIds then connection.close else connection) =
        server.connections.map Connection.close := by
    refine List.map_congr_left fun connection member => ?_
    split
    next => rfl
    next closed =>
      have shut : connection.isOpen = false := by
        rw [← Bool.not_eq_true]
        intro opened
        exact closed (List.mem_map_of_mem (List.mem_filter.mpr ⟨member, opened⟩))
      simp [Connection.close, shut]
  have both : (server.connections.map Connection.close).map Connection.discard =
      server.connections.map fun connection => connection.close.discard := List.map_map
  simp only [drain, beginStop, connections, both]

theorem Mirrors.halt (mirrors : Mirrors alike number probes server other) :
    Mirrors alike number probes server.halt other.halt := by
  have kept (connection : Connection) : connection.close.discard.id = connection.id :=
    (connection.close.discard_id).trans connection.close_id
  obtain ⟨_, mine⟩ := server.halt_shape
  obtain ⟨_, theirs⟩ := other.halt_shape
  rw [mine, theirs]
  refine { mirrors with
    listening := rfl, stopped := rfl, queue := rfl, connections := ?_, ahead := ?_, ended := ?_
    known := ?_, waiters := congrArg List.tail mirrors.waiters, queued := by simp }
  · simp only [List.filter_map, Function.comp_def, kept, mirrors.connections, List.map_map]
    refine List.map_congr_left fun connection _ => ?_
    rw [Connection.blind_close.renumber, Connection.blind_discard.renumber]
  · simpa [nextId] using mirrors.ahead
  · intro connection member probe
    obtain ⟨before, present, rfl⟩ := List.mem_map.mp member
    rw [kept] at probe
    obtain ⟨unread, ending⟩ := mirrors.ended before present probe
    simp [unread, ending]
  · simpa [List.map_map, Function.comp_def, kept] using mirrors.known

theorem Mirrors.foldl_live (mirrors : Mirrors alike number probes server other)
    {mine theirs : List (Nat × Moment)}
    (leaving : Moment.leaving theirs = (Moment.leaving mine).map (Handler.renumber number)) :
    Mirrors alike number probes (mine.foldl (fun server moment => server.live moment.2) server)
      (theirs.foldl (fun server moment => server.live moment.2) other) := by
  induction mine generalizing server other theirs with
  | nil =>
      induction theirs generalizing other with
      | nil => exact mirrors
      | cons moment rest ih =>
          obtain ⟨time, moment⟩ := moment
          cases moment with
          | left handler => simp [Moment.leaving] at leaving
          | closeFailed id => exact @ih (other.live (.closeFailed id)) { mirrors with } leaving
          | woken waiter => exact @ih (other.live (.woken waiter)) { mirrors with } leaving
  | cons moment others ih =>
      obtain ⟨time, moment⟩ := moment
      cases moment with
      | closeFailed id =>
          exact @ih (server.live (.closeFailed id)) other { mirrors with } theirs leaving
      | woken waiter =>
          exact @ih (server.live (.woken waiter)) other { mirrors with } theirs leaving
      | left handler =>
          induction theirs generalizing other with
          | nil => simp [Moment.leaving] at leaving
          | cons moment rest later =>
              obtain ⟨moment, theirs⟩ := moment
              cases theirs with
              | closeFailed id =>
                  exact @later (other.live (.closeFailed id)) { mirrors with } leaving
              | woken waiter => exact @later (other.live (.woken waiter)) { mirrors with } leaving
              | left leaver =>
                  replace leaving : leaver :: Moment.leaving rest =
                    handler.renumber number :: (Moment.leaving others).map _ := leaving
                  obtain ⟨same, further⟩ := List.cons.inj leaving
                  subst same
                  have noted : Mirrors alike number probes
                      (server.note (Connection.disconnectedRecord handler.connection))
                      (other.note (Connection.disconnectedRecord (number handler.connection))) :=
                    { mirrors with }
                  exact ih (noted.leave handler) further

end Stop

def readers (server : Server σ) : List Handler :=
  (server.connections.filter Connection.isOpen).flatMap fun connection =>
    (server.handler? connection.id).toList

omit [Outlet σ] in
theorem Mirrors.readers (mirrors : Mirrors alike number probes server other) :
    other.readers = server.readers.map (Handler.renumber number) := by
  have unread {id : Nat} (probe : id ∈ probes) : other.handler? id = none := by
    refine List.find?_eq_none.mpr fun handler reads => ?_
    rw [mirrors.handlers] at reads
    obtain ⟨mine, _, rfl⟩ := List.mem_map.mp reads
    rw [beq_iff_eq]
    rintro rfl
    exact mirrors.spares mine.connection probe
  have clients : other.readers =
      ((other.connections.filter fun connection => connection.id ∉ probes).filter
        Connection.isOpen).flatMap fun connection => (other.handler? connection.id).toList := by
    rw [List.filter_comm, flatMap_filter_of_nil, Server.readers]
    intro connection probe
    rw [unread (by simpa using probe), Option.toList_none]
  rw [clients, mirrors.connections, List.filter_map, Server.readers, List.flatMap_map,
    List.map_flatMap]
  refine List.flatMap_congr fun connection _ => ?_
  have found := mirrors.handler?_eq connection.id
  exact (congrArg Option.toList found).trans (Option.toList_map ..)

theorem Solo.readers (solo : server.Solo) : server.readers.length ≤ 1 := by
  have distinct : server.readers.Nodup := by
    refine List.Nodup.of_map Handler.connection ?_
    refine ((connections_handlers server _).trans (List.filter_sublist.map _)).nodup ?_
    rw [show server.connections.map Connection.id = _ from solo.coherent.numbered]
    exact List.nodup_range'
  have reads : server.readers ⊆ server.handlers := by
    intro handler member
    obtain ⟨connection, _, reads⟩ := List.mem_flatMap.mp member
    exact (handler?_mem (Option.mem_toList.mp reads)).1
  have single := solo.looped.single
  exact (List.subperm_of_subset distinct reads).length_le.trans (by omega)

theorem Mirrors.leaving (mirrors : Mirrors alike number probes server other) (solo : server.Solo) :
    Moment.leaving other.moments =
      (Moment.leaving server.moments).map (Handler.renumber number) := by
  have mine : (Moment.leaving server.moments).Perm server.readers := server.leaving_moments
  have theirs : (Moment.leaving other.moments).Perm other.readers := other.leaving_moments
  rw [mirrors.readers] at theirs
  have few := solo.readers
  cases readers : server.readers with
  | nil =>
      rw [readers] at mine theirs
      rw [mine.eq_nil, theirs.eq_nil, List.map_nil]
  | cons handler rest =>
      obtain rfl : rest = [] := List.length_eq_zero_iff.mp (by simpa [readers] using few)
      rw [readers] at mine theirs
      rw [List.perm_singleton.mp mine]
      exact List.perm_singleton.mp theirs

theorem Mirrors.stop (mirrors : Mirrors alike number probes server other) (solo : server.Solo) :
    Mirrors alike number probes server.stop other.stop :=
  mirrors.halt.foldl_live (mirrors.leaving solo)

end SteeringChannel.Server
