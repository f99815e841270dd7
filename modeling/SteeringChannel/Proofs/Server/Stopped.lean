import SteeringChannel.Proofs.Server.Availability
import SteeringChannel.Proofs.Server.Exclusion

/-!
A server from the beginning of its stop on. Nothing that arrives is admitted, no task begins to
wait, and nothing that is closed opens again, so the tasks and the queue only become fewer.
-/

namespace SteeringChannel.Server

variable {σ : Type} {server last : Server σ}

theorem stopped_stays [Outlet σ] (stopped : server.stopped = true) (move : Move) :
    (server.perform move).stopped = true := by
  rcases server.stopped_perform move with rfl | same
  · rfl
  · exact same.trans stopped

theorem Run.stopped [Outlet σ] {starts : Server σ → Waiter → Prop} {moves : List Move}
    (run : Run starts server moves last) (stopped : server.stopped = true) :
    last.stopped = true := by
  induction run with
  | still => exact stopped
  | move next _ _ ih => exact stopped_stays ih next

theorem isListening_of_stopped (stopped : server.stopped = true) : server.isListening = false := by
  simp [isListening, stopped]

theorem await_stopped (stopped : server.stopped = true) (waiter : Waiter) :
    server.await waiter = server.refuse waiter (.notOpen server.path) := by
  simp [await, isListening_of_stopped stopped]

theorem waiters_leave_stopped (stopped : server.stopped = true) (handler : Handler) :
    (server.leave handler).waiters = server.waiters := by
  simp [waiters_leave, isListening_of_stopped stopped]

theorem nextId_perform [Outlet σ] (server : Server σ) {move : Move}
    (other : ∀ arrival, move ≠ .arrive arrival) :
    (server.perform move).nextId = server.nextId := by
  by_cases quiet : move.isQuiet = true
  · exact (server.sameStream_perform quiet 0).nextId
  · cases move with
    | arrive arrival => exact absurd rfl (other arrival)
    | consume now id bytes =>
        simp only [perform, consume_eq]
        exact nextId_update ..
    | receive id bytes => exact nextId_update ..
    | finish id ending => exact nextId_update ..
    | conclude id ending => exact nextId_update ..
    | giveUp now id => exact nextId_update ..
    | shut id => exact nextId_update ..
    | _ => simp [Move.isQuiet] at quiet

theorem isOpen_perform [Outlet σ] (numbered : server.Numbered) (stopped : server.stopped = true)
    {starts : Server σ → Waiter → Prop} {move : Move} (fits : server.Fits starts move) {id : Nat}
    (opened : (server.perform move).isOpen id = true) : server.isOpen id = true := by
  by_cases quiet : move.isQuiet = true
  · rwa [(server.sameStream_perform quiet id).isOpen] at opened
  · have shut (other : Nat) (opened : (server.shut other).isOpen id = true) :
        server.isOpen id = true := by
      rw [isOpen_shut] at opened
      split at opened
      · simp at opened
      · exact opened
    cases move with
    | arrive arrival =>
        rw [perform, isOpen_register numbered arrival fits.2] at opened
        split at opened
        · simp [server.fate_of_stopped stopped] at opened
        · exact opened
    | receive other bytes => simpa [perform] using opened
    | finish other ending => simpa [perform] using opened
    | consume now other bytes => simpa [perform] using opened
    | conclude other ending => exact shut other opened
    | giveUp now other => exact shut other opened
    | shut other => exact shut other opened
    | _ => simp [Move.isQuiet] at quiet

theorem Run.isOpen [Outlet σ] {starts : Server σ → Waiter → Prop} {moves : List Move}
    (run : Run starts server moves last) (coherent : server.Coherent)
    (stopped : server.stopped = true) {id : Nat} (opened : last.isOpen id = true) :
    server.isOpen id = true := by
  induction run with
  | still => exact opened
  | move next run fits ih =>
      exact ih (isOpen_perform (run.coherent coherent).numbered (run.stopped stopped) fits opened)

theorem Run.isOpen_shut [Outlet σ] {starts : Server σ → Waiter → Prop} {moves : List Move}
    (run : Run starts server moves last) (coherent : server.Coherent)
    (stopped : server.stopped = true) {id : Nat} (shuts : .shut id ∈ moves) :
    last.isOpen id = false := by
  obtain ⟨before, after, rfl⟩ := List.append_of_mem shuts
  obtain ⟨middle, first, second⟩ := run.split
  obtain ⟨fits, rest⟩ := second.uncons
  rw [← Bool.not_eq_true]
  intro opened
  have still := rest.isOpen ((first.coherent coherent).perform fits)
    (stopped_stays (first.stopped stopped) _) opened
  rw [perform, Server.isOpen_shut, if_pos rfl] at still
  exact absurd still Bool.false_ne_true

theorem standing?_leave (server : Server σ) (handler : Handler) (id : Nat) :
    (server.leave handler).standing? id = server.standing? id ∨
      (server.leave handler).standing? id = some .handled := by
  obtain ⟨waiters, records, finished, shape⟩ := server.leave_shape handler
  rw [shape]
  have released := server.standing?_release handler.connection id
  by_cases same : id = handler.connection
  · rw [if_pos same] at released
    cases stands : server.standing? id with
    | none => exact Or.inl (by rw [stands] at released; exact released)
    | some standing => exact Or.inr (by rw [stands] at released; exact released)
  · exact Or.inl (released.trans (if_neg same))

theorem standing?_perform [Outlet σ] (numbered : server.Numbered) (move : Move) (id : Nat) :
    (server.perform move).standing? id = server.standing? id ∨
      (∃ arrival, move = .arrive arrival ∧ id = server.nextId ∧
        (server.perform move).standing? id = some server.fate) ∨
      ∃ standing ∈ [Standing.handed, Standing.handled, Standing.discarded],
        (server.perform move).standing? id = some standing := by
  cases move with
  | await waiter =>
      obtain ⟨waiters, records, finished, shape⟩ := server.await_shape waiter
      simp only [perform, shape]
      exact Or.inl rfl
  | arrive arrival =>
      simp only [perform]
      rw [standing?_register numbered]
      by_cases same : id = server.nextId
      · exact Or.inr (Or.inl ⟨arrival, rfl, same, if_pos same⟩)
      · exact Or.inl (if_neg same)
  | hand now =>
      simp only [perform, handFirst]
      split
      next first rest waiter others _ _ =>
        have handed := server.standing?_hand now waiter first id
        by_cases same : id = first
        · rw [if_pos same] at handed
          cases stands : server.standing? id with
          | none => exact Or.inl (by rw [stands] at handed; exact handed)
          | some standing =>
              rw [stands] at handed
              exact Or.inr (Or.inr ⟨.handed, by simp, handed⟩)
        · exact Or.inl (handed.trans (if_neg same))
      next => exact Or.inl rfl
  | leave handler =>
      exact (server.standing?_leave handler id).imp_right fun handled =>
        Or.inr ⟨.handled, by simp, handled⟩
  | drain =>
      simp only [perform]
      rw [standing?_drain]
      cases server.standing? id with
      | none => exact Or.inl rfl
      | some standing =>
          by_cases queued : standing = .queued
          · exact Or.inr (Or.inr ⟨.discarded, by simp, by simp [queued]⟩)
          · exact Or.inl (by simp [queued])
  | live moment =>
      cases moment with
      | left handler =>
          have left := standing?_leave
            (server.note (Connection.disconnectedRecord handler.connection)) handler id
          exact left.imp_right fun handled => Or.inr ⟨.handled, by simp, handled⟩
      | closeFailed other => exact Or.inl rfl
      | woken waiter => exact Or.inl rfl
  | receive other bytes => exact Or.inl (by simp [perform])
  | finish other ending => exact Or.inl (by simp [perform])
  | consume now other bytes => exact Or.inl (by simp [perform])
  | conclude other ending => exact Or.inl (by simp [perform])
  | giveUp now other => exact Or.inl (by simp [perform])
  | shut other => exact Or.inl (by simp [perform])
  | listen => exact Or.inl rfl
  | beginStop => exact Or.inl rfl
  | report => exact Or.inl rfl

def TurnsAway (first : Nat) (server : Server σ) : Prop :=
  ∀ id, server.standing? id = some .turnedAway ↔ first ≤ id ∧ id < server.nextId

theorem turnsAway_perform [Outlet σ] {first : Nat} (turns : server.TurnsAway first)
    (earlier : first ≤ server.nextId) (coherent : server.Coherent)
    (stopped : server.stopped = true) {starts : Server σ → Waiter → Prop} {move : Move}
    (fits : server.Fits starts move) :
    (server.perform move).TurnsAway first ∧ first ≤ (server.perform move).nextId := by
  by_cases arrives : ∃ arrival, move = .arrive arrival
  · obtain ⟨arrival, rfl⟩ := arrives
    simp only [perform]
    rw [nextId_register]
    refine ⟨fun id => ?_, by omega⟩
    rw [standing?_register coherent.numbered, nextId_register]
    split
    next same => simp [server.fate_of_stopped stopped, same, earlier]
    next different =>
      rw [turns id]
      omega
  · have other (arrival : Connection) (same : move = .arrive arrival) : False :=
      arrives ⟨arrival, same⟩
    have nextId := server.nextId_perform other
    rw [nextId]
    refine ⟨fun id => ?_, earlier⟩
    rw [nextId, ← turns id]
    constructor
    · intro turned
      rcases server.standing?_perform coherent.numbered move id with same | ⟨_, arrival, _⟩ | moved
      · rwa [same] at turned
      · exact (other _ arrival).elim
      · obtain ⟨standing, member, stands⟩ := moved
        rw [turned] at stands
        obtain rfl := Option.some.inj stands
        simp at member
    · intro turned
      exact coherent.final_perform fits turned rfl

theorem Run.turnsAway [Outlet σ] {starts : Server σ → Waiter → Prop} {start : Server σ}
    {moves : List Move} (run : Run starts start moves server) (fresh : start.Fresh)
    (running : server.stopped = false) : server.TurnsAway server.nextId := by
  have nobody : ∀ id, server.standing? id ≠ some .turnedAway := by
    induction run with
    | still =>
        rw [fresh]
        simp [standing?, connection?]
    | @move _ server next run fits ih =>
        have before : server.stopped = false := by
          rcases server.stopped_perform next with rfl | same
          · simp [perform, beginStop] at running
          · exact same.symm.trans running
        have numbered := (run.coherent fresh.coherent).numbered
        intro id turned
        rcases server.standing?_perform numbered next id with same | ⟨_, _, _, new⟩ | moved
        · exact ih before id (same.symm.trans turned)
        · rw [turned] at new
          rcases server.fate_cases with ⟨_, stopped⟩ | ⟨fate, _⟩ | ⟨fate, _⟩
          · exact absurd (before.symm.trans stopped) Bool.false_ne_true
          · simp [fate] at new
          · simp [fate] at new
        · obtain ⟨standing, member, stands⟩ := moved
          rw [turned] at stands
          obtain rfl := Option.some.inj stands
          simp at member
  intro id
  exact iff_of_false (nobody id) (by omega)

/-- The part of the queue for which no task waits. -/
def unpromised (server : Server σ) : List Nat := server.queue.drop server.waiters.length

theorem unpromised_perform [Outlet σ] (stopped : server.stopped = true) {move : Move}
    (other : move ≠ .drain) : (server.perform move).unpromised = server.unpromised := by
  have left (server : Server σ) (stopped : server.stopped = true) (handler : Handler) :
      (server.leave handler).unpromised = server.unpromised := by
    simp only [unpromised, queue_leave, waiters_leave_stopped stopped]
  cases move with
  | await waiter => simp only [perform, await_stopped stopped]; rfl
  | arrive arrival =>
      simp only [perform, unpromised, queue_register, waiters_register]
      rw [if_neg (by simp [server.fate_of_stopped stopped])]
  | hand now =>
      simp only [perform, handFirst]
      split
      next queue waiters => simp [unpromised, queue, waiters]
      next => rfl
  | consume now id bytes => simp only [perform, consume_eq]; rfl
  | leave handler => exact left server stopped handler
  | live moment =>
      cases moment with
      | left handler =>
          exact left (server.note (Connection.disconnectedRecord handler.connection)) stopped
            handler
      | closeFailed id => rfl
      | woken waiter => rfl
  | drain => exact absurd rfl other
  | _ => rfl

theorem Run.discards [Outlet σ] {starts : Server σ → Waiter → Prop} {moves : List Move}
    (run : Run starts server moves last) (coherent : server.Coherent)
    (stopped : server.stopped = true) {id : Nat} (member : id ∈ server.unpromised) :
    id ∈ last.unpromised ∨ last.standing? id = some .discarded := by
  induction run with
  | still => exact Or.inl member
  | @move _ server next run fits ih =>
      have coherent := run.coherent coherent
      rcases ih with waits | discarded
      · by_cases drains : next = .drain
        · subst drains
          have queued := (coherent.queued id).mp (List.mem_of_mem_drop waits)
          exact Or.inr (by simp [perform, standing?_drain, queued])
        · exact Or.inl (unpromised_perform (run.stopped stopped) drains ▸ waits)
      · exact Or.inr (coherent.final_perform fits discarded rfl)

theorem waiters_perform [Outlet σ] (stopped : server.stopped = true) (move : Move) :
    (server.perform move).waiters <:+ server.waiters := by
  have left (server : Server σ) (stopped : server.stopped = true) (handler : Handler) :
      (server.leave handler).waiters <:+ server.waiters :=
    (waiters_leave_stopped stopped handler).symm ▸ List.suffix_rfl
  cases move with
  | await waiter =>
      simp only [perform, await_stopped stopped]
      exact List.suffix_rfl
  | arrive arrival =>
      simp only [perform, waiters_register]
      exact List.suffix_rfl
  | hand now =>
      simp only [perform, handFirst]
      split
      next waiters => exact waiters ▸ List.suffix_cons ..
      next => exact List.suffix_rfl
  | consume now id bytes =>
      simp only [perform, consume_eq]
      exact List.suffix_rfl
  | leave handler => exact left server stopped handler
  | live moment =>
      cases moment with
      | left handler =>
          exact left (server.note (Connection.disconnectedRecord handler.connection)) stopped
            handler
      | closeFailed id => exact List.suffix_rfl
      | woken waiter => exact List.suffix_rfl
  | drain => exact List.tail_suffix _
  | _ => exact List.suffix_rfl

theorem Run.waiters [Outlet σ] {starts : Server σ → Waiter → Prop} {moves : List Move}
    (run : Run starts server moves last) (stopped : server.stopped = true) :
    last.waiters <:+ server.waiters := by
  induction run with
  | still => exact List.suffix_rfl
  | move next run fits ih => exact (waiters_perform (run.stopped stopped) next).trans ih

theorem Run.waiters_eq_nil [Outlet σ] {moves : List Move} (run : Run alone server moves last)
    (coherent : server.Coherent) (looped : server.Looped) (stopped : server.stopped = true)
    (drains : .drain ∈ moves) : last.waiters = [] := by
  obtain ⟨before, after, rfl⟩ := List.append_of_mem drains
  obtain ⟨middle, first, second⟩ := run.split
  obtain ⟨fits, rest⟩ := second.uncons
  have suffix := rest.waiters (stopped_stays (first.stopped stopped) _)
  have single := (first.looped coherent looped).single
  have empty : (middle.perform .drain).waiters = [] := by
    refine List.length_eq_zero_iff.mp ?_
    change middle.waiters.tail.length = 0
    rw [List.length_tail]
    omega
  rw [empty] at suffix
  exact List.suffix_nil.mp suffix

structure Deserted (server : Server σ) : Prop where
  stopped : server.stopped = true
  queue : server.queue = []
  waiters : server.waiters = []
  handlers : server.handlers = []
  handled : ∀ id ∈ server.accepted, server.standing? id = some .handled
  counted : server.served = server.accepted.length

theorem Deserted.frame [Outlet σ] (deserted : server.Deserted) {starts : Server σ → Waiter → Prop}
    {move : Move} (fits : server.Fits starts move) :
    (server.perform move).queue = [] ∧ (server.perform move).waiters = [] ∧
      (server.perform move).handlers = [] ∧
      (server.perform move).accepted = server.accepted ∧
      (server.perform move).served = server.served ∧
      (server.perform move).dispatcher = server.dispatcher := by
  obtain ⟨stopped, queue, waiters, handlers, _, _⟩ := deserted
  cases move with
  | await waiter =>
      have next : server.perform (.await waiter) = server.refuse waiter (.notOpen server.path) :=
        await_stopped stopped waiter
      rw [next]
      exact ⟨queue, waiters, handlers, rfl, rfl, rfl⟩
  | arrive arrival =>
      have refused : server.fate ≠ .queued := by simp [server.fate_of_stopped stopped]
      simp [Server.perform, queue_register, refused, queue, waiters, handlers]
  | hand now =>
      have next : server.perform (.hand now) = server := by simp [Server.perform, handFirst, queue]
      rw [next]
      exact ⟨queue, waiters, handlers, rfl, rfl, rfl⟩
  | consume now id bytes => simp [Server.Fits, handlers] at fits
  | conclude id ending => simp [Server.Fits, handlers] at fits
  | giveUp now id => simp [Server.Fits, handlers] at fits
  | leave handler => simp [Server.Fits, handlers] at fits
  | drain => exact ⟨rfl, by simp [Server.perform, Server.drain, waiters], handlers, rfl, rfl, rfl⟩
  | live moment =>
      cases moment with
      | left handler => simp [Server.Fits, handlers] at fits
      | closeFailed id => exact ⟨queue, waiters, handlers, rfl, rfl, rfl⟩
      | woken waiter => exact ⟨queue, waiters, handlers, rfl, rfl, rfl⟩
  | _ => exact ⟨queue, waiters, handlers, rfl, rfl, rfl⟩

theorem Deserted.perform [Outlet σ] (deserted : server.Deserted) (coherent : server.Coherent)
    {starts : Server σ → Waiter → Prop} {move : Move} (fits : server.Fits starts move) :
    (server.perform move).Deserted := by
  obtain ⟨queue, waiters, handlers, accepted, served, _⟩ := deserted.frame fits
  refine ⟨stopped_stays deserted.stopped move, queue, waiters, handlers, fun id member => ?_, ?_⟩
  · exact coherent.final_perform fits (deserted.handled id (accepted ▸ member)) rfl
  · rw [served, accepted]
    exact deserted.counted

theorem Run.deserted [Outlet σ] {starts : Server σ → Waiter → Prop} {moves : List Move}
    (run : Run starts server moves last) (coherent : server.Coherent)
    (deserted : server.Deserted) :
    last.Deserted ∧ last.served = server.served ∧ last.dispatcher = server.dispatcher := by
  induction run with
  | still => exact ⟨deserted, rfl, rfl⟩
  | move next run fits ih =>
      obtain ⟨remains, served, dispatcher⟩ := ih
      obtain ⟨_, _, _, _, counted, dispatched⟩ := remains.frame fits
      exact ⟨remains.perform (run.coherent coherent) fits, counted.trans served,
        dispatched.trans dispatcher⟩

end SteeringChannel.Server
