import SteeringChannel.Proofs.Server.Deadline

/-!
The stop. All connections are closed and the queue is emptied before any task notices, and when
every task has noticed, none of them reads.
-/

namespace SteeringChannel.Server

variable {σ : Type} {server other : Server σ}

theorem mem_openIds (numbered : server.Numbered) (id : Nat) :
    id ∈ server.openIds ↔ server.isOpen id = true := by
  simp only [openIds]
  rw [isOpen_eq]
  constructor
  · intro member
    obtain ⟨connection, opened, rfl⟩ := List.mem_map.mp member
    obtain ⟨present, opened⟩ := List.mem_filter.mp opened
    simp [numbered.connection?_of_mem present, opened]
  · intro opened
    cases found : server.connection? id with
    | none => simp [found] at opened
    | some connection =>
        simp only [found, Option.map_some, Option.getD_some] at opened
        refine List.mem_map.mpr ⟨connection, List.mem_filter.mpr ⟨?_, opened⟩, ?_⟩
        · exact server.mem_of_connection? found
        · exact server.id_of_connection? found

theorem isOpen_foldl_shut (ids : List Nat) (server : Server σ) (id : Nat) :
    (ids.foldl shut server).isOpen id = if id ∈ ids then false else server.isOpen id := by
  induction ids generalizing server with
  | nil => simp
  | cons first rest ih =>
      rw [List.foldl_cons, ih, isOpen_shut]
      by_cases later : id ∈ rest <;> by_cases same : id = first <;> simp [later, same]

theorem foldl_shut_frame (ids : List Nat) (server : Server σ) :
    (ids.foldl shut server).stopped = server.stopped ∧
      (ids.foldl shut server).queue = server.queue ∧
      (ids.foldl shut server).handlers = server.handlers := by
  induction ids generalizing server with
  | nil => exact ⟨rfl, rfl, rfl⟩
  | cons first rest ih => exact ih (server.shut first)

theorem run_foldl_shut [Outlet σ] (starts : Server σ → Waiter → Prop) (ids : List Nat)
    (stopped : server.stopped = true) :
    Run starts server (ids.map .shut) (ids.foldl shut server) := by
  induction ids generalizing server with
  | nil => exact Run.still
  | cons first rest ih =>
      have shuts : Run starts server [.shut first] (server.shut first) :=
        Run.one (.shut first) stopped
      exact shuts.trans (ih stopped)

theorem isOpen_halt (numbered : server.Numbered) (id : Nat) : server.halt.isOpen id = false := by
  simp only [halt]
  rw [isOpen_drain, isOpen_foldl_shut]
  split
  next => rfl
  next closed =>
    rw [mem_openIds numbered, Bool.not_eq_true] at closed
    exact closed

theorem run_halt [Outlet σ] (starts : Server σ → Waiter → Prop) (numbered : server.Numbered) :
    Run starts server (.beginStop :: (server.openIds.map .shut ++ [.drain])) server.halt := by
  have begins : Run starts server [.beginStop] server.beginStop := Run.one .beginStop trivial
  have shuts : Run starts server.beginStop (server.openIds.map .shut)
      (server.openIds.foldl shut server.beginStop) := run_foldl_shut starts server.openIds rfl
  refine begins.trans (shuts.trans (Run.one .drain ⟨?_, fun id _ => ?_⟩))
  · exact (foldl_shut_frame server.openIds server.beginStop).1
  · exact (isOpen_drain _ id).symm.trans (isOpen_halt numbered id)

def Moment.leaving (moments : List (Nat × Moment)) : List Handler :=
  moments.filterMap fun
    | (_, .left handler) => some handler
    | _ => none

theorem run_live [Outlet σ] (starts : Server σ → Waiter → Prop) {moments : List (Nat × Moment)}
    (coherent : server.Coherent) (stopped : server.stopped = true) (queue : server.queue = [])
    (closed : ∀ handler ∈ server.handlers, server.isOpen handler.connection = false)
    (reads : ∀ handler ∈ Moment.leaving moments, handler ∈ server.handlers)
    (distinct : ((Moment.leaving moments).map Handler.connection).Nodup) :
    let last := moments.foldl (fun server moment => server.live moment.2) server
    Run starts server (moments.map fun moment => .live moment.2) last ∧ last.queue = [] ∧
      ∀ handler ∈ last.handlers, handler ∈ server.handlers ∧ handler ∉ Moment.leaving moments := by
  induction moments generalizing server with
  | nil => exact ⟨Run.still, queue, fun handler present => ⟨present, by simp [Moment.leaving]⟩⟩
  | cons moment rest ih =>
      obtain ⟨time, moment⟩ := moment
      cases moment with
      | closeFailed id =>
          have lives : Run starts server [.live (.closeFailed id)]
              (server.live (.closeFailed id)) := Run.one (.live (.closeFailed id)) stopped
          obtain ⟨others, empty, remain⟩ := @ih (server.live (.closeFailed id))
            (lives.coherent coherent) stopped queue closed reads distinct
          exact ⟨lives.trans others, empty, remain⟩
      | woken waiter =>
          have lives : Run starts server [.live (.woken waiter)] (server.live (.woken waiter)) :=
            Run.one (.live (.woken waiter)) stopped
          obtain ⟨others, empty, remain⟩ := @ih (server.live (.woken waiter))
            (lives.coherent coherent) stopped queue closed reads distinct
          exact ⟨lives.trans others, empty, remain⟩
      | left leaver =>
          have split : Moment.leaving ((time, .left leaver) :: rest) =
            leaver :: Moment.leaving rest := rfl
          rw [split] at reads distinct ⊢
          obtain ⟨gone, distinct⟩ := List.nodup_cons.mp distinct
          have present := reads leaver List.mem_cons_self
          have lives : Run starts server [.live (.left leaver)] (server.live (.left leaver)) :=
            Run.one (.live (.left leaver)) ⟨present, closed leaver present⟩
          have handlers : (server.live (.left leaver)).handlers =
              server.handlers.filter fun other => other.connection != leaver.connection :=
            handlers_leave _ leaver
          have fewer : ∀ handler ∈ (server.live (.left leaver)).handlers,
              handler ∈ server.handlers ∧ handler ≠ leaver := by
            intro handler member
            rw [handlers, List.mem_filter] at member
            refine ⟨member.1, ?_⟩
            rintro rfl
            simp at member
          -- Who leaves later reads another connection, and is not gone yet.
          obtain ⟨after, empty, remain⟩ := @ih (server.live (.left leaver))
            (lives.coherent coherent) ((stopped_leave _ leaver).trans stopped)
            ((queue_leave _ leaver).trans queue)
            (fun handler member =>
              (sameStream_leave _ leaver handler.connection).isOpen.trans
                (closed handler (fewer handler member).1))
            (fun handler member => by
              have different : handler.connection ≠ leaver.connection := fun same =>
                gone (same ▸ List.mem_map_of_mem member)
              rw [handlers]
              exact List.mem_filter.mpr
                ⟨reads handler (List.mem_cons_of_mem leaver member), by simpa using different⟩)
            distinct
          refine ⟨lives.trans after, empty, fun handler member => ?_⟩
          obtain ⟨before, stays⟩ := remain handler member
          obtain ⟨there, different⟩ := fewer handler before
          exact ⟨there, fun leaves => (List.mem_cons.mp leaves).elim different stays⟩

theorem leaving_momentsOf (server : Server σ) (start : Nat) (connections : List Connection) :
    Moment.leaving (server.momentsOf start connections).1 =
      connections.flatMap fun connection => (server.handler? connection.id).toList := by
  induction connections generalizing start with
  | nil => rfl
  | cons connection rest ih =>
      have failed (moments : List (Nat × Moment)) :
          Moment.leaving ((if connection.closeFails then
            [(start, Moment.closeFailed connection.id)] else []) ++ moments) =
              Moment.leaving moments := by
        split <;> rfl
      rw [List.flatMap_cons, ← ih (if connection.scripted then start else start + 2)]
      simp only [momentsOf, List.append_assoc, failed]
      cases server.handler? connection.id <;> rfl

theorem leaving_moments (server : Server σ) :
    (Moment.leaving server.moments).Perm
      ((server.connections.filter Connection.isOpen).flatMap fun connection =>
        (server.handler? connection.id).toList) := by
  simp only [moments]
  rw [← leaving_momentsOf server 0]
  refine ((List.mergeSort_perm _ _).filterMap _).trans ?_
  rw [List.filterMap_append]
  refine List.Perm.of_eq ?_
  cases server.waiters.head? <;> simp [Moment.leaving]

theorem connections_handlers (server : Server σ) (connections : List Connection) :
    ((connections.flatMap fun connection => (server.handler? connection.id).toList).map
      Handler.connection).Sublist (connections.map Connection.id) := by
  induction connections with
  | nil => exact List.Sublist.slnil
  | cons connection rest ih =>
      rw [List.flatMap_cons, List.map_append, List.map_cons]
      cases found : server.handler? connection.id with
      | none => exact ih.cons _
      | some handler =>
          obtain ⟨_, same⟩ := handler?_mem found
          simp only [Option.toList_some, List.map_cons, List.map_nil, List.singleton_append, same]
          exact ih.cons_cons _

def closing (server : Server σ) (moments : List (Nat × Moment)) : List Move :=
  .beginStop :: (server.openIds.map .shut ++
    .drain :: moments.map fun moment => .live moment.2)

theorem run_closing [Outlet σ] (starts : Server σ → Waiter → Prop) (coherent : server.Coherent)
    {moments : List (Nat × Moment)}
    (reads : ∀ handler ∈ Moment.leaving moments, handler ∈ server.handlers)
    (distinct : ((Moment.leaving moments).map Handler.connection).Nodup) :
    let last := moments.foldl (fun server moment => server.live moment.2) server.halt
    Run starts server (server.closing moments) last ∧ last.queue = [] ∧
      ∀ handler ∈ last.handlers, handler ∈ server.handlers ∧ handler ∉ Moment.leaving moments := by
  have halts := run_halt starts coherent.numbered
  obtain ⟨stopped, _, handlers⟩ := foldl_shut_frame server.openIds server.beginStop
  replace handlers : server.halt.handlers = server.handlers := handlers
  obtain ⟨lives, queue, remain⟩ := run_live starts (halts.coherent coherent) stopped rfl
    (fun handler _ => isOpen_halt coherent.numbered handler.connection) (handlers ▸ reads) distinct
  refine ⟨?_, queue, handlers ▸ remain⟩
  have whole := halts.trans lives
  rw [List.cons_append, List.append_assoc] at whole
  exact whole

theorem Settled.run_stop [Outlet σ] (starts : Server σ → Waiter → Prop)
    (settled : server.Settled) (coherent : server.Coherent) :
    Run starts server (server.closing server.moments) server.stop ∧ server.stop.Settled := by
  have numbered := coherent.numbered
  have perm := server.leaving_moments
  have reads : ∀ handler ∈ Moment.leaving server.moments, handler ∈ server.handlers := by
    intro handler member
    obtain ⟨connection, _, reads⟩ := List.mem_flatMap.mp (perm.subset member)
    exact (handler?_mem (Option.mem_toList.mp reads)).1
  have distinct : ((Moment.leaving server.moments).map Handler.connection).Nodup := by
    refine (perm.map Handler.connection).nodup_iff.mpr ?_
    refine ((connections_handlers server _).trans (List.filter_sublist.map _)).nodup ?_
    rw [show server.connections.map Connection.id = _ from numbered]
    exact List.nodup_range'
  obtain ⟨run, queue, remain⟩ := run_closing starts coherent reads distinct
  have nobody : server.stop.handlers = [] := by
    refine List.eq_nil_iff_forall_not_mem.mpr fun handler member => ?_
    obtain ⟨present, stays⟩ := remain handler member
    have opened := ((settled.attentive.awaits handler present).resolve_left id).isOpen
    rw [isOpen_eq] at opened
    refine stays (perm.mem_iff.mpr ?_)
    cases found : server.connection? handler.connection with
    | none => simp [found] at opened
    | some connection =>
        simp only [found, Option.map_some, Option.getD_some] at opened
        refine List.mem_flatMap.mpr ⟨connection, List.mem_filter.mpr
          ⟨server.mem_of_connection? found, opened⟩, ?_⟩
        have number := server.id_of_connection? found
        cases reader : server.handler? connection.id with
        | none =>
            have unmatched := List.find?_eq_none.mp reader handler present
            simp [number] at unmatched
        | some other =>
            obtain ⟨also, same⟩ := handler?_mem reader
            have equal := coherent.handler_unique also present (same.trans number)
            simp [equal]
  exact ⟨run, ⟨⟨by simp [nobody], fun _ => queue⟩, Or.inl queue⟩⟩

theorem stopped_stop [Outlet σ] (server : Server σ) : server.stop.stopped = true := by
  have halted : server.halt.stopped = true := (foldl_shut_frame server.openIds server.beginStop).1
  simp only [Server.stop]
  generalize server.moments = moments
  generalize server.halt = halt at halted
  induction moments generalizing halt with
  | nil => exact halted
  | cons moment rest ih =>
      refine ih _ ?_
      dsimp only
      cases moment.2 with
      | left handler => exact (stopped_leave _ handler).trans halted
      | closeFailed id => exact halted
      | woken waiter => exact halted

theorem Settled.stop [Outlet σ] (settled : server.Settled) (coherent : server.Coherent) :
    server.Reaches server.stop ∧ server.stop.Settled := by
  obtain ⟨run, rests⟩ := settled.run_stop anybody coherent
  refine ⟨⟨server.closing server.moments, run, fun move member => ?_⟩, rests⟩
  simp only [closing, List.mem_cons, List.mem_append, List.mem_map] at member
  rcases member with rfl | ⟨_, _, rfl⟩ | rfl | ⟨_, _, rfl⟩ <;> trivial

end SteeringChannel.Server
