import SteeringChannel.Proofs.Server.Move

/-!
What a server does by itself: it hands over, reads, gives up and leaves, until every connection
that is handled waits for its next byte. Nothing of that starts a task, and all of it happens at
one moment.
-/

namespace SteeringChannel.Server

variable {σ : Type} [Outlet σ] {server other : Server σ} {now : Rat}

def nobody (_ : Server σ) (_ : Waiter) : Prop := False

def Move.isOwn (now : Rat) : Move → Prop
  | .hand moment | .consume moment _ _ | .giveUp moment _ => moment = now
  | .conclude _ _ | .leave _ => True
  | _ => False

def Works (now : Rat) (server other : Server σ) : Prop :=
  ∃ moves, Run nobody server moves other ∧ ∀ move ∈ moves, move.isOwn now

namespace Works

theorem refl (now : Rat) (server : Server σ) : server.Works now server :=
  ⟨[], Run.still, by simp⟩

theorem one (move : Move) (fits : server.Fits nobody move) (own : move.isOwn now) :
    server.Works now (server.perform move) :=
  ⟨[move], Run.one move fits, by simpa using own⟩

theorem trans {middle : Server σ} (first : server.Works now middle)
    (second : middle.Works now other) : server.Works now other := by
  obtain ⟨before, run, own⟩ := first
  obtain ⟨after, rest, still⟩ := second
  refine ⟨before ++ after, run.trans rest, fun move member => ?_⟩
  exact (List.mem_append.mp member).elim (own move) (still move)

theorem keeps (works : server.Works now other) (kept : Server σ → Prop)
    (step : ∀ (server : Server σ) (move : Move), move.isOwn now → server.Fits nobody move →
      kept server → kept (server.perform move))
    (initial : kept server) : kept other := by
  obtain ⟨moves, run, own⟩ := works
  induction run with
  | still => exact initial
  | move next _ fits ih =>
      obtain ⟨before, last⟩ := List.forall_mem_append.mp own
      exact step _ next (List.forall_mem_singleton.mp last) fits (ih before)

end Works

theorem lifecycle_perform (server : Server σ) {move : Move} (own : move.isOwn now) :
    (server.perform move).listening = server.listening ∧
      (server.perform move).stopped = server.stopped := by
  cases move with
  | hand moment =>
      simp only [perform, handFirst]
      split <;> exact ⟨rfl, rfl⟩
  | consume moment id bytes =>
      simp only [perform, consume_eq]
      exact ⟨rfl, rfl⟩
  | conclude id ending => exact ⟨rfl, rfl⟩
  | giveUp moment id => exact ⟨rfl, rfl⟩
  | leave handler =>
      obtain ⟨waiters, records, finished, shape⟩ := server.leave_shape handler
      simp only [perform, shape]
      exact ⟨rfl, rfl⟩
  | _ => exact own.elim

theorem Works.lifecycle (works : server.Works now other) :
    other.listening = server.listening ∧ other.stopped = server.stopped := by
  refine works.keeps (fun later => later.listening = server.listening ∧
    later.stopped = server.stopped) ?_ ⟨rfl, rfl⟩
  intro before move own _ same
  obtain ⟨listening, stopped⟩ := before.lifecycle_perform own
  exact ⟨listening.trans same.1, stopped.trans same.2⟩

theorem line_perform (server : Server σ) {move : Move} (own : move.isOwn now) :
    (server.perform move).accepted ++ (server.perform move).queue =
      server.accepted ++ server.queue := by
  cases move with
  | hand moment =>
      simp only [perform, handFirst]
      split
      next id rest waiter others queue _ =>
        rw [queue]
        exact List.append_assoc server.accepted [id] rest
      next => rfl
  | consume moment id bytes =>
      simp only [perform, consume_eq]
      rfl
  | conclude id ending => rfl
  | giveUp moment id => rfl
  | leave handler =>
      obtain ⟨waiters, records, finished, shape⟩ := server.leave_shape handler
      simp only [perform, shape]
      rfl
  | _ => exact own.elim

theorem Works.line (works : server.Works now other) :
    other.accepted ++ other.queue = server.accepted ++ server.queue := by
  refine works.keeps (fun later => later.accepted ++ later.queue =
    server.accepted ++ server.queue) ?_ rfl
  exact fun before move own _ same => (before.line_perform own).trans same

theorem read_cases {handler : Handler} {connection : Connection} (now : Rat)
    (found : server.connection? handler.connection = some connection) :
    (server.neverWaits = true ∧
      server.read now handler =
        server.endHandling handler (server.idleRecord handler.connection)) ∨
    (server.neverWaits = false ∧ ∃ ending, connection.ending = some ending ∧
      server.read now handler =
        (server.consume now handler.connection connection.unread).endHandling handler
          (Connection.endingRecord handler.connection ending)) ∨
    (server.neverWaits = false ∧ connection.ending = none ∧
      server.read now handler = server.consume now handler.connection connection.unread) := by
  simp only [read]
  rw [found]
  dsimp only
  split
  next never => exact Or.inl ⟨never, rfl⟩
  next waits =>
    rw [Bool.not_eq_true] at waits
    split
    next ending ends => exact Or.inr (Or.inl ⟨waits, ending, ends, rfl⟩)
    next lasts => exact Or.inr (Or.inr ⟨waits, lasts, rfl⟩)

theorem mem_handlers_consume {handler : Handler} (present : handler ∈ server.handlers) (now : Rat)
    (id : Nat) (bytes : List UInt8) :
    ∃ since, { handler with since := since } ∈ (server.consume now id bytes).handlers := by
  rw [consume_eq]
  dsimp only
  split
  · exact ⟨handler.since, present⟩
  · by_cases same : (handler.connection == id) = true
    · exact ⟨now, List.mem_map.mpr ⟨handler, present, by simp [same]⟩⟩
    · exact ⟨handler.since, List.mem_map.mpr ⟨handler, present, by simp [same]⟩⟩

theorem works_endHandling {handler : Handler} {since : Rat} (move : Move)
    {record : Journal.Record} (present : { handler with since := since } ∈ server.handlers)
    (fits : server.Fits nobody move) (own : move.isOwn now)
    (closes : server.perform move = server.dismiss handler.connection record) :
    server.Works now (server.endHandling handler record) := by
  have closed : server.Works now (server.dismiss handler.connection record) := by
    rw [← closes]
    exact Works.one move fits own
  refine closed.trans (Works.one (.leave { handler with since := since }) ⟨present, ?_⟩ trivial)
  rw [isOpen_dismiss, if_pos rfl]

theorem works_read {handler : Handler} (present : handler ∈ server.handlers) (now : Rat) :
    server.Works now (server.read now handler) := by
  have handled : handler.connection ∈ server.handlers.map Handler.connection :=
    List.mem_map_of_mem present
  cases found : server.connection? handler.connection with
  | none =>
      simp only [read]
      rw [found]
      exact Works.refl now server
  | some connection =>
      have unread : server.unread handler.connection = connection.unread := by
        simp [Server.unread, found]
      have consumed : server.Works now (server.consume now handler.connection connection.unread) :=
        Works.one (.consume now handler.connection connection.unread)
          ⟨handled, unread ▸ List.prefix_rfl⟩ rfl
      rcases read_cases now found with ⟨never, shape⟩ | ⟨_, ending, ends, shape⟩ | ⟨_, _, shape⟩
      · rw [shape]
        exact works_endHandling (.giveUp now handler.connection) present
          ⟨handler, present, rfl, Or.inl never⟩ rfl rfl
      · rw [shape]
        obtain ⟨since, stays⟩ :=
          mem_handlers_consume present now handler.connection connection.unread
        refine consumed.trans
          (works_endHandling (.conclude handler.connection ending) stays ?_ trivial rfl)
        refine ⟨List.mem_map.mpr ⟨_, stays, rfl⟩, ?_, ?_⟩
        · rw [unread_consume, if_pos rfl, unread, List.drop_length]
        · rw [ending?_consume]
          simp [ending?, found, ends]
      · rw [shape]
        exact consumed

omit [Outlet σ] in
theorem handler?_mem {id : Nat} {handler : Handler} (found : server.handler? id = some handler) :
    handler ∈ server.handlers ∧ handler.connection = id :=
  ⟨List.mem_of_find?_eq_some found, by simpa using List.find?_some found⟩

theorem works_readIfHandled (server : Server σ) (now : Rat) (id : Nat) :
    server.Works now (server.readIfHandled now id) := by
  simp only [readIfHandled]
  split
  next handler found => exact works_read (handler?_mem found).1 now
  next => exact Works.refl now server

theorem works_settleFirst (server : Server σ) (now : Rat) :
    server.Works now (server.settleFirst now) := by
  simp only [settleFirst]
  split
  next id _ _ _ _ _ =>
    have handed : server.Works now (server.handFirst now) := Works.one (.hand now) trivial rfl
    exact handed.trans (works_readIfHandled _ now id)
  next => exact Works.refl now server

theorem works_foldl_settleFirst (server : Server σ) (now : Rat) (steps : List Nat) :
    server.Works now (steps.foldl (fun server _ => server.settleFirst now) server) := by
  induction steps generalizing server with
  | nil => exact Works.refl now server
  | cons _ rest ih => exact (server.works_settleFirst now).trans (ih (server.settleFirst now))

theorem works_settle (server : Server σ) (now : Rat) : server.Works now (server.settle now) :=
  server.works_foldl_settleFirst now server.queue

theorem works_expire {handler : Handler} {now : Rat} (present : handler ∈ server.handlers)
    (due : server.isDue now handler = true) : server.Works now (server.expire now handler) := by
  have closed : server.Works now
      (server.dismiss handler.connection (server.idleRecord handler.connection)) :=
    Works.one (.giveUp now handler.connection) ⟨handler, present, rfl, Or.inr due⟩ rfl
  simp only [expire]
  split
  next connection _ =>
    split
    · refine (closed.trans (Works.one (.leave handler) ⟨present, ?_⟩ trivial)).trans
        (works_settle _ now)
      rw [isOpen_dismiss, if_pos rfl]
    · exact closed
  next => exact closed

theorem works_leaveExpired {handler : Handler} (now : Rat)
    (closed : handler ∈ server.handlers → server.isOpen handler.connection = false) :
    server.Works now (server.leaveExpired now handler) := by
  simp only [leaveExpired]
  split
  next present =>
    replace present := List.contains_iff_mem.mp present
    exact (Works.one (.leave handler) ⟨present, closed present⟩ trivial).trans
      (works_settle _ now)
  next => exact Works.refl now server

end SteeringChannel.Server
