import SteeringChannel.Proofs.Dispatch
import SteeringChannel.Proofs.Server.Coherence

/-!
What the peers send, told from the run alone, and how much of it the server takes: a connection is
read from its beginning, and to its end unless somebody closes it before.
-/

namespace SteeringChannel.Server

variable {σ : Type} {server : Server σ}

/-- What the peer of one connection has sent. After the end of a stream nothing more counts. -/
structure Stream where
  arrivals : Nat := 0
  sent : List UInt8 := []
  ended : Bool := false

def Stream.next (id : Nat) (stream : Stream) : Move → Stream
  | .arrive arrival =>
      if stream.arrivals + 1 = id then ⟨id, arrival.unread, arrival.ending.isSome⟩
      else { stream with arrivals := stream.arrivals + 1 }
  | .receive other bytes =>
      if other = id ∧ stream.ended = false then { stream with sent := stream.sent ++ bytes }
      else stream
  | .finish other _ => if other = id then { stream with ended := true } else stream
  | _ => stream

def Move.stream (id : Nat) (moves : List Move) : Stream := moves.foldl (Stream.next id) {}

theorem Move.stream_append (id : Nat) (moves : List Move) (move : Move) :
    stream id (moves ++ [move]) = (stream id moves).next id move := by
  simp [stream]

def Move.isQuiet : Move → Bool
  | .arrive _ | .receive _ _ | .finish _ _ | .consume _ _ _ => false
  | .conclude _ _ | .giveUp _ _ | .shut _ => false
  | _ => true

structure SameStream (server other : Server σ) (id : Nat) : Prop where
  nextId : other.nextId = server.nextId
  taken : other.taken id = server.taken id
  unread : other.unread id = server.unread id
  ending : other.ending? id = server.ending? id
  isOpen : other.isOpen id = server.isOpen id

theorem nextId_update (id : Nat) (change : Connection → Connection) :
    (server.update id change).nextId = server.nextId := by
  simp [Server.nextId, update]

theorem nextId_register (server : Server σ) (arrival : Connection) :
    (server.register arrival).nextId = server.nextId + 1 := by
  simp only [register, nextId]
  split <;> simp

theorem sameStream_leave (server : Server σ) (handler : Handler) (id : Nat) :
    server.SameStream (server.leave handler) id := by
  obtain ⟨waiters, records, finished, shape⟩ := server.leave_shape handler
  rw [shape]
  exact ⟨nextId_update handler.connection _, server.taken_release handler.connection id,
    server.unread_release handler.connection id, server.ending?_release handler.connection id,
    server.isOpen_release handler.connection id⟩

theorem sameStream_handFirst (server : Server σ) (now : Rat) (id : Nat) :
    server.SameStream (server.handFirst now) id := by
  simp only [handFirst]
  split
  next first rest waiter others _ _ =>
    exact ⟨nextId_update first _, server.taken_hand now waiter first id,
      server.unread_hand now waiter first id, server.ending?_hand now waiter first id,
      server.isOpen_hand now waiter first id⟩
  next => exact ⟨rfl, rfl, rfl, rfl, rfl⟩

theorem sameStream_perform [Outlet σ] (server : Server σ) {move : Move}
    (quiet : move.isQuiet = true) (id : Nat) : server.SameStream (server.perform move) id := by
  cases move with
  | await waiter =>
      obtain ⟨waiters, records, finished, shape⟩ := server.await_shape waiter
      simp only [perform, shape]
      exact ⟨rfl, rfl, rfl, rfl, rfl⟩
  | hand now => exact server.sameStream_handFirst now id
  | leave handler => exact server.sameStream_leave handler id
  | drain =>
      refine ⟨?_, server.taken_drain id, server.unread_drain id, server.ending?_drain id,
        server.isOpen_drain id⟩
      simp [perform, drain, nextId]
  | live moment =>
      cases moment with
      | left handler =>
          have same := sameStream_leave
            (server.note (Connection.disconnectedRecord handler.connection)) handler id
          exact ⟨same.nextId, same.taken, same.unread, same.ending, same.isOpen⟩
      | closeFailed other => exact ⟨rfl, rfl, rfl, rfl, rfl⟩
      | woken waiter => exact ⟨rfl, rfl, rfl, rfl, rfl⟩
  | listen => exact ⟨rfl, rfl, rfl, rfl, rfl⟩
  | beginStop => exact ⟨rfl, rfl, rfl, rfl, rfl⟩
  | report => exact ⟨rfl, rfl, rfl, rfl, rfl⟩
  | _ => simp [Move.isQuiet] at quiet

theorem Stream.next_quiet {move : Move} (quiet : move.isQuiet = true) (id : Nat)
    (stream : Stream) : stream.next id move = stream := by
  cases move <;> first | rfl | simp [Move.isQuiet] at quiet

structure Heard (server : Server σ) (id : Nat) (stream : Stream) : Prop where
  arrivals : stream.arrivals + 1 = server.nextId
  begins : server.taken id ++ server.unread id <+: stream.sent
  whole : server.isOpen id = true ∨ server.ending? id ≠ none →
    server.taken id ++ server.unread id = stream.sent ∧
      stream.ended = (server.ending? id).isSome

namespace Heard

variable {id : Nat} {stream : Stream} (heard : server.Heard id stream)
include heard

theorem unnoticed {other : Server σ} (same : server.SameStream other id) {longer : Stream}
    (arrivals : longer.arrivals = stream.arrivals) (begins : stream.sent <+: longer.sent)
    (noticed : server.isOpen id = true ∨ server.ending? id ≠ none → longer = stream) :
    other.Heard id longer := by
  constructor
  case arrivals => rw [arrivals, same.nextId, heard.arrivals]
  case begins =>
    rw [same.taken, same.unread]
    exact heard.begins.trans begins
  case whole =>
    rw [same.taken, same.unread, same.ending, same.isOpen]
    intro present
    rw [noticed present]
    exact heard.whole present

theorem quiet {other : Server σ} (same : server.SameStream other id) : other.Heard id stream :=
  heard.unnoticed same rfl List.prefix_rfl fun _ => rfl

theorem shut (other : Nat) : (server.shut other).Heard id stream := by
  constructor
  case arrivals => exact heard.arrivals.trans (nextId_update other _).symm
  case begins => simpa using heard.begins
  case whole =>
    rw [isOpen_shut, ending?_shut, taken_shut, unread_shut]
    intro present
    refine heard.whole (present.imp_left fun opened => ?_)
    split at opened
    · simp at opened
    · exact opened

theorem dismiss (other : Nat) (record : Journal.Record) :
    (server.dismiss other record).Heard id stream :=
  (heard.shut other).quiet ⟨rfl, rfl, rfl, rfl, rfl⟩

theorem receive (other : Nat) (bytes : List UInt8) :
    (server.receive other bytes).Heard id (stream.next id (.receive other bytes)) := by
  have nextId : (server.receive other bytes).nextId = server.nextId := nextId_update other _
  by_cases noticed : id = other ∧ server.isOpen other = true ∧ server.ending? other = none
  · obtain ⟨rfl, opened, going⟩ := noticed
    obtain ⟨sent, ended⟩ := heard.whole (Or.inl opened)
    have unended : stream.ended = false := by simp [ended, going]
    have grown : (server.receive id bytes).taken id ++ (server.receive id bytes).unread id =
        stream.sent ++ bytes := by
      rw [taken_receive, unread_receive, if_pos ⟨rfl, opened, going⟩, ← List.append_assoc, sent]
    simp only [Stream.next, unended, and_self, if_true]
    refine ⟨heard.arrivals.trans nextId.symm, grown ▸ List.prefix_rfl, fun _ => ⟨grown, ?_⟩⟩
    simp [going]
  · have same : server.SameStream (server.receive other bytes) id :=
      { nextId := nextId
        taken := server.taken_receive other id bytes
        unread := by rw [unread_receive, if_neg noticed]
        ending := server.ending?_receive other id bytes
        isOpen := server.isOpen_receive other id bytes }
    refine heard.unnoticed same ?_ ?_ ?_
    · simp only [Stream.next]
      split <;> rfl
    · simp only [Stream.next]
      split
      · exact List.prefix_append _ _
      · exact List.prefix_rfl
    · intro present
      refine if_neg fun both => noticed ?_
      obtain ⟨rfl, unended⟩ := both
      have going := (heard.whole present).2
      rw [unended] at going
      have none : server.ending? other = none := by simpa using going.symm
      exact ⟨rfl, present.resolve_right fun ended => ended none, none⟩

theorem finish (other : Nat) (ending : Ending) :
    (server.finish other ending).Heard id (stream.next id (.finish other ending)) := by
  have nextId : (server.finish other ending).nextId = server.nextId := nextId_update other _
  by_cases noticed : id = other ∧ server.isOpen other = true
  · obtain ⟨rfl, opened⟩ := noticed
    have sent := (heard.whole (Or.inl opened)).1
    have ended : ((server.finish id ending).ending? id).isSome = true := by
      rw [ending?_finish, if_pos ⟨rfl, opened⟩]
      cases server.ending? id <;> rfl
    simp only [Stream.next, if_true]
    constructor
    case arrivals => exact heard.arrivals.trans nextId.symm
    case begins => simpa using heard.begins
    case whole =>
      rw [taken_finish, unread_finish]
      exact fun _ => ⟨sent, ended.symm⟩
  · have same : server.SameStream (server.finish other ending) id :=
      { nextId := nextId
        taken := server.taken_finish other id ending
        unread := server.unread_finish other id ending
        ending := by rw [ending?_finish, if_neg noticed]
        isOpen := server.isOpen_finish other id ending }
    refine heard.unnoticed same ?_ ?_ ?_
    · simp only [Stream.next]
      split <;> rfl
    · simp only [Stream.next]
      split <;> exact List.prefix_rfl
    · intro present
      simp only [Stream.next]
      split
      next number =>
        obtain rfl := number
        have closed := present.resolve_left fun opened => noticed ⟨rfl, opened⟩
        have ended : stream.ended = true := by
          rw [(heard.whole present).2]
          exact Option.isSome_iff_ne_none.mpr closed
        rw [← ended]
      next => rfl

theorem consume [Outlet σ] (now : Rat) {other : Nat} {bytes : List UInt8}
    (arrived : bytes <+: server.unread other) : (server.consume now other bytes).Heard id stream := by
  have held : (server.consume now other bytes).taken id ++
      (server.consume now other bytes).unread id = server.taken id ++ server.unread id := by
    rw [server.taken_consume now other id bytes arrived, unread_consume]
    by_cases same : id = other
    · obtain rfl := same
      obtain ⟨rest, split⟩ := arrived
      simp [← split]
    · simp [same]
  constructor
  case arrivals =>
    rw [consume_eq]
    exact heard.arrivals.trans (nextId_update other _).symm
  case begins =>
    rw [held]
    exact heard.begins
  case whole =>
    rw [held, isOpen_consume, ending?_consume]
    exact heard.whole

theorem register (coherent : server.Coherent) {arrival : Connection} (untaken : arrival.taken = []) :
    (server.register arrival).Heard id (stream.next id (.arrive arrival)) := by
  have numbered := coherent.numbered
  have nextId := server.nextId_register arrival
  have earlier := heard.arrivals
  simp only [Stream.next, earlier]
  split
  next same =>
    obtain rfl := same
    have held : (server.register arrival).taken server.nextId ++
        (server.register arrival).unread server.nextId = arrival.unread := by
      rw [taken_register numbered, unread_register numbered, if_pos rfl, if_pos rfl, untaken,
        List.nil_append]
    refine ⟨nextId.symm, held ▸ List.prefix_rfl, fun _ => ⟨held, ?_⟩⟩
    rw [ending?_register numbered, if_pos rfl]
  next different =>
    have other : id ≠ server.nextId := fun same => different same.symm
    constructor
    case arrivals =>
      rw [nextId]
    case begins =>
      rw [taken_register numbered, unread_register numbered, if_neg other, if_neg other]
      exact heard.begins
    case whole =>
      have opened : (server.register arrival).isOpen id = server.isOpen id := by
        rw [isOpen_eq, isOpen_eq, connection?_register numbered, if_neg other]
      rw [taken_register numbered, unread_register numbered, ending?_register numbered,
        if_neg other, if_neg other, if_neg other, opened]
      exact heard.whole

theorem perform [Outlet σ] (coherent : server.Coherent) {starts : Server σ → Waiter → Prop}
    {move : Move} (fits : server.Fits starts move) :
    (server.perform move).Heard id (stream.next id move) := by
  by_cases quiet : move.isQuiet = true
  · rw [Stream.next_quiet quiet]
    exact heard.quiet (server.sameStream_perform quiet id)
  · cases move with
    | arrive arrival => exact heard.register coherent fits.1
    | receive other bytes => exact heard.receive other bytes
    | finish other ending => exact heard.finish other ending
    | consume now other bytes => exact heard.consume now fits.2
    | conclude other ending => exact heard.dismiss other _
    | giveUp now other => exact heard.dismiss other _
    | shut other => exact heard.shut other
    | _ => simp [Move.isQuiet] at quiet

end Heard

theorem Fresh.heard (fresh : server.Fresh) (id : Nat) : server.Heard id {} := by
  rw [fresh]
  refine ⟨rfl, List.prefix_rfl, fun present => ?_⟩
  simp [isOpen, ending?, connection?] at present

theorem Run.heard [Outlet σ] {starts : Server σ → Waiter → Prop} {start : Server σ}
    {moves : List Move} (run : Run starts start moves server) (fresh : start.Fresh) (id : Nat) :
    server.Heard id (Move.stream id moves) := by
  induction run with
  | still => exact fresh.heard id
  | move next run fits ih =>
      rw [Move.stream_append]
      exact ih.perform (run.coherent fresh.coherent) fits

/-! Who closes a connection, and what has been read by then. -/

def Move.closes (id : Nat) (move : Move) : Prop :=
  (∃ ending, move = .conclude id ending) ∨ (∃ now, move = .giveUp now id) ∨ move = .shut id

theorem mem_perform [Outlet σ] (server : Server σ) (move : Move) {id : Nat}
    (present : id ∈ (server.perform move).accepted ++ (server.perform move).queue) :
    id ∈ server.accepted ++ server.queue ∨ ∃ arrival, move = .arrive arrival ∧
      id = server.nextId ∧ server.fate = .queued := by
  cases move with
  | await waiter =>
      obtain ⟨waiters, records, finished, shape⟩ := server.await_shape waiter
      simp only [perform, shape] at present
      exact Or.inl present
  | arrive arrival =>
      simp only [perform, accepted_register, queue_register] at present
      split at present
      next queued =>
        rw [← List.append_assoc, List.mem_append, List.mem_singleton] at present
        exact present.imp_right fun new => ⟨arrival, rfl, new, queued⟩
      next => exact Or.inl present
  | hand now =>
      simp only [perform, handFirst] at present
      split at present
      next first rest waiter others queue _ =>
        replace present : id ∈ (server.accepted ++ [first]) ++ rest := present
        rw [List.append_assoc, List.singleton_append, ← queue] at present
        exact Or.inl present
      next => exact Or.inl present
  | consume now other bytes =>
      simp only [perform, consume_eq] at present
      exact Or.inl present
  | leave handler =>
      obtain ⟨waiters, records, finished, shape⟩ := server.leave_shape handler
      simp only [perform, shape] at present
      exact Or.inl present
  | live moment =>
      cases moment with
      | left handler =>
          obtain ⟨waiters, records, finished, shape⟩ :=
            (server.note (Connection.disconnectedRecord handler.connection)).leave_shape handler
          simp only [perform, live, shape] at present
          exact Or.inl present
      | closeFailed other => exact Or.inl present
      | woken waiter => exact Or.inl present
  | drain => exact Or.inl (List.mem_append_left _ (by simpa [perform, drain] using present))
  | _ => exact Or.inl present

theorem closed_perform [Outlet σ] (coherent : server.Coherent) {starts : Server σ → Waiter → Prop}
    {move : Move} (fits : server.Fits starts move) {id : Nat} (earlier : id < server.nextId)
    (closed : (server.perform move).isOpen id = false) :
    server.isOpen id = false ∨ move.closes id := by
  have shut (other : Nat) (shut : (server.shut other).isOpen id = false) :
      server.isOpen id = false ∨ id = other := by
    rw [isOpen_shut] at shut
    split at shut
    next same => exact Or.inr same
    next => exact Or.inl shut
  by_cases quiet : move.isQuiet = true
  · rw [(server.sameStream_perform quiet id).isOpen] at closed
    exact Or.inl closed
  · cases move with
    | arrive arrival =>
        simp only [perform] at closed
        rw [isOpen_register coherent.numbered arrival fits.2,
          if_neg (Nat.ne_of_lt earlier)] at closed
        exact Or.inl closed
    | receive other bytes => exact Or.inl (by simpa [perform] using closed)
    | finish other ending => exact Or.inl (by simpa [perform] using closed)
    | consume now other bytes => exact Or.inl (by simpa [perform] using closed)
    | conclude other ending =>
        refine (shut other closed).imp_right ?_
        rintro rfl
        exact Or.inl ⟨ending, rfl⟩
    | giveUp now other =>
        refine (shut other closed).imp_right ?_
        rintro rfl
        exact Or.inr (Or.inl ⟨now, rfl⟩)
    | shut other =>
        refine (shut other closed).imp_right ?_
        rintro rfl
        exact Or.inr (Or.inr rfl)
    | _ => simp [Move.isQuiet] at quiet

theorem closed_stays [Outlet σ] (numbered : server.Numbered) {starts : Server σ → Waiter → Prop}
    {move : Move} (fits : server.Fits starts move) {id : Nat} (earlier : id < server.nextId)
    (closed : server.isOpen id = false) :
    id < (server.perform move).nextId ∧ (server.perform move).isOpen id = false := by
  by_cases quiet : move.isQuiet = true
  · have same := server.sameStream_perform quiet id
    exact ⟨same.nextId.symm ▸ earlier, same.isOpen.trans closed⟩
  · have shut (other : Nat) : (server.shut other).isOpen id = false := by
      rw [isOpen_shut, closed, ite_self]
    cases move with
    | arrive arrival =>
        refine ⟨?_, ?_⟩
        · rw [perform, nextId_register]
          omega
        · rw [perform, isOpen_register numbered arrival fits.2, if_neg (Nat.ne_of_lt earlier)]
          exact closed
    | consume now other bytes =>
        refine ⟨?_, by simpa [perform] using closed⟩
        rw [perform, consume_eq]
        exact (nextId_update other _).symm ▸ earlier
    | receive other bytes =>
        exact ⟨(nextId_update other _).symm ▸ earlier, by simpa [perform] using closed⟩
    | finish other ending =>
        exact ⟨(nextId_update other _).symm ▸ earlier, by simpa [perform] using closed⟩
    | conclude other ending => exact ⟨(nextId_update other _).symm ▸ earlier, shut other⟩
    | giveUp now other => exact ⟨(nextId_update other _).symm ▸ earlier, shut other⟩
    | shut other => exact ⟨(nextId_update other _).symm ▸ earlier, shut other⟩
    | _ => simp [Move.isQuiet] at quiet

theorem Run.closer [Outlet σ] {starts : Server σ → Waiter → Prop} {start : Server σ}
    {moves : List Move} (run : Run starts start moves server) (fresh : start.Fresh) {id : Nat}
    (present : id ∈ server.accepted ++ server.queue) (closed : server.isOpen id = false) :
    ∃ move ∈ moves, move.closes id := by
  induction run with
  | still =>
      rw [fresh] at present
      simp at present
  | @move _ server next run fits ih =>
      have coherent := run.coherent fresh.coherent
      rcases server.mem_perform next present with before | ⟨arrival, rfl, rfl, queued⟩
      · rcases closed_perform coherent fits (coherent.lt_nextId before) closed with earlier | now
        · obtain ⟨move, member, closes⟩ := ih before earlier
          exact ⟨move, List.mem_append_left _ member, closes⟩
        · exact ⟨next, List.mem_append_right _ (List.mem_singleton.mpr rfl), now⟩
      · simp only [perform] at closed
        rw [isOpen_register coherent.numbered arrival fits.2, if_pos rfl] at closed
        simp [queued] at closed

theorem ended_perform [Outlet σ] (numbered : server.Numbered) (move : Move) {id : Nat}
    (ended : server.ending? id ≠ none) : (server.perform move).ending? id ≠ none := by
  by_cases quiet : move.isQuiet = true
  · exact (server.sameStream_perform quiet id).ending.symm ▸ ended
  · cases move with
    | arrive arrival =>
        have different : id ≠ server.nextId := by
          rintro rfl
          simp [ending?, numbered.connection?_nextId] at ended
        rw [perform, ending?_register numbered, if_neg different]
        exact ended
    | finish other ending =>
        rw [perform, ending?_finish]
        split
        · cases found : server.ending? id <;> simp_all
        · exact ended
    | receive other bytes => simpa [perform] using ended
    | consume now other bytes => simpa [perform] using ended
    | conclude other ending => simpa [perform] using ended
    | giveUp now other => simpa [perform] using ended
    | shut other => simpa [perform] using ended
    | _ => simp [Move.isQuiet] at quiet

def ReadOut (server : Server σ) (id : Nat) : Prop :=
  server.unread id = [] ∧ server.ending? id ≠ none

theorem ReadOut.perform [Outlet σ] {id : Nat} (readOut : server.ReadOut id)
    (numbered : server.Numbered) (move : Move) : (server.perform move).ReadOut id := by
  obtain ⟨unread, ended⟩ := readOut
  refine ⟨?_, ended_perform numbered move ended⟩
  by_cases quiet : move.isQuiet = true
  · exact (server.sameStream_perform quiet id).unread.trans unread
  · cases move with
    | arrive arrival =>
        have different : id ≠ server.nextId := by
          rintro rfl
          simp [ending?, numbered.connection?_nextId] at ended
        rw [Server.perform, unread_register numbered, if_neg different, unread]
    | receive other bytes =>
        rw [Server.perform, unread_receive, if_neg, unread]
        rintro ⟨rfl, _, going⟩
        exact ended going
    | consume now other bytes =>
        rw [Server.perform, unread_consume]
        split <;> simp [unread]
    | finish other ending => simpa [Server.perform] using unread
    | conclude other ending => simpa [Server.perform] using unread
    | giveUp now other => simpa [Server.perform] using unread
    | shut other => simpa [Server.perform] using unread
    | _ => simp [Move.isQuiet] at quiet

theorem Run.readOut [Outlet σ] {starts : Server σ → Waiter → Prop} {start : Server σ}
    {moves : List Move} (run : Run starts start moves server) (initial : start.Coherent) {id : Nat}
    {ending : Ending} (concluded : Move.conclude id ending ∈ moves) : server.ReadOut id := by
  induction run with
  | still => simp at concluded
  | @move _ server next run fits ih =>
      have numbered := (run.coherent initial).numbered
      rcases List.mem_append.mp concluded with before | last
      · exact (ih before).perform numbered next
      · obtain rfl := List.mem_singleton.mp last
        have readOut : server.ReadOut id := ⟨fits.2.1, by simp [fits.2.2]⟩
        exact readOut.perform numbered _

end SteeringChannel.Server
