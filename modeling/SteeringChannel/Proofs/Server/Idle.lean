import Mathlib.Algebra.Order.Ring.Rat
import Mathlib.Tactic.Linarith
import SteeringChannel.Proofs.Server.Halt
import SteeringChannel.Proofs.Server.Stopped

/-!
How long reads have waited. A waiting time starts anew when a connection is handed over and when
bytes are taken from it, at no other moment; and while everything happens at a moment when no
waiting time is over, nothing is given up.
-/

namespace SteeringChannel.Server

variable {σ : Type} [Outlet σ] {server middle other : Server σ} {now : Rat}

def Move.isAt (now : Rat) : Move → Prop
  | .hand moment | .consume moment _ _ | .giveUp moment _ => moment = now
  | _ => True

theorem Move.isAt_of_isOwn {move : Move} (own : move.isOwn now) : move.isAt now := by
  cases move <;> first | exact own | trivial

def Passes (now : Rat) (server other : Server σ) : Prop :=
  ∃ moves, Run anybody server moves other ∧ ∀ move ∈ moves, move.isAt now

theorem Passes.trans (first : server.Passes now middle) (second : middle.Passes now other) :
    server.Passes now other := by
  obtain ⟨before, run, early⟩ := first
  obtain ⟨after, rest, late⟩ := second
  exact ⟨before ++ after, run.trans rest, List.forall_mem_append.mpr ⟨early, late⟩⟩

theorem Passes.one (move : Move) (fits : server.Fits anybody move) (timed : move.isAt now) :
    server.Passes now (server.perform move) :=
  ⟨[move], Run.one move fits, by simpa using timed⟩

theorem Works.passes (works : server.Works now other) : server.Passes now other := by
  obtain ⟨moves, run, own⟩ := works
  refine ⟨moves, run.mono fun _ _ _ => trivial, fun move member => ?_⟩
  exact Move.isAt_of_isOwn (own move member)

theorem passes_opening (server : Server σ) (now : Rat) {operation : Operation}
    (sound : ∀ arrival, operation = .arrive arrival → arrival.taken = [] ∧ arrival.closes = 0) :
    server.Passes now ((server.opening operation).foldl perform server) := by
  have still : server.Passes now server := ⟨[], Run.still, by simp⟩
  have ends (id : Nat) : server.Passes now
      ((if server.isOpen id then [.finish id .finished] else []).foldl perform server) := by
    split
    · exact Passes.one (.finish id .finished) trivial trivial
    · exact still
  cases operation with
  | listen => exact Passes.one .listen trivial trivial
  | start task duty => exact Passes.one (.await ⟨task, duty⟩) trivial trivial
  | arrive arrival => exact Passes.one (.arrive arrival) (sound arrival rfl) trivial
  | deliver id bytes =>
      simp only [opening]
      split
      · exact Passes.one (.receive id bytes) trivial trivial
      · exact still
  | hangUp id => exact ends id
  | withdraw id => exact ends id
  | stop => exact still
  | settle => exact still

theorem passes_operateAll (server : Server σ) (now : Rat) {operations : List Operation}
    (goes : ∀ operation ∈ operations, operation ≠ .stop)
    (sound : ∀ operation ∈ operations, ∀ arrival, operation = .arrive arrival →
      arrival.taken = [] ∧ arrival.closes = 0) :
    server.Passes now (server.operateAll now operations) := by
  induction operations generalizing server with
  | nil => exact ⟨[], Run.still, by simp⟩
  | cons operation rest ih =>
      obtain ⟨here, later⟩ := List.forall_mem_cons.mp goes
      obtain ⟨first, others⟩ := List.forall_mem_cons.mp sound
      have operates : server.Passes now (server.operate now operation) :=
        (server.passes_opening now first).trans (server.works_operate now here).passes
      have reported : server.Passes now (server.operate now operation).reported :=
        operates.trans (Passes.one .report trivial trivial)
      exact reported.trans (ih (server.operate now operation).reported later others)

theorem Settled.passes_stop (settled : server.Settled) (coherent : server.Coherent) (now : Rat) :
    server.Passes now server.stop := by
  refine ⟨_, (settled.run_stop anybody coherent).1, fun move member => ?_⟩
  simp only [closing, List.mem_cons, List.mem_append, List.mem_map] at member
  rcases member with rfl | ⟨_, _, rfl⟩ | rfl | ⟨_, _, rfl⟩ <;> trivial

structure Paced (now : Rat) (server other : Server σ) : Prop where
  accepted : server.accepted <+: other.accepted
  taken : ∀ id, server.taken id <+: other.taken id
  handlers : ∀ handler ∈ other.handlers,
    handler ∈ server.handlers ∧
        other.taken handler.connection = server.taken handler.connection ∨
      handler.since = now ∧ (handler.connection ∉ server.accepted ∨
        other.taken handler.connection ≠ server.taken handler.connection)

omit [Outlet σ] in
theorem Paced.refl (now : Rat) (server : Server σ) : Paced now server server :=
  ⟨List.prefix_rfl, fun _ => List.prefix_rfl, fun _ present => .inl ⟨present, rfl⟩⟩

omit [Outlet σ] in
theorem Paced.trans (first : Paced now server middle) (second : Paced now middle other) :
    Paced now server other := by
  refine ⟨first.accepted.trans second.accepted,
    fun id => (first.taken id).trans (second.taken id), fun handler present => ?_⟩
  rcases second.handlers handler present with ⟨before, same⟩ | ⟨since, new⟩
  · rw [same]
    exact first.handlers handler before
  · refine .inr ⟨since, new.imp (fun fresh early => fresh (first.accepted.subset early)) ?_⟩
    intro grown same
    have between := first.taken handler.connection
    exact grown ((second.taken handler.connection).eq_of_length_le (same ▸ between.length_le)).symm

theorem mem_of_mem_consume {handler : Handler} {id : Nat} {bytes : List UInt8}
    (present : handler ∈ (server.consume now id bytes).handlers)
    (untouched : handler.connection = id → bytes = []) : handler ∈ server.handlers := by
  rw [consume_eq] at present
  dsimp only at present
  split at present
  · exact present
  next some =>
    obtain ⟨before, member, touched⟩ := List.mem_map.mp present
    split at touched
    next matched =>
      subst touched
      exact absurd (by simp [untouched (by simpa using matched)]) some
    next => exact touched ▸ member

theorem since_of_mem_consume {handler : Handler} {bytes : List UInt8}
    (present : handler ∈ (server.consume now handler.connection bytes).handlers)
    (some : bytes ≠ []) : handler.since = now := by
  rw [consume_eq] at present
  dsimp only at present
  rw [if_neg (by simpa using some)] at present
  obtain ⟨before, _, touched⟩ := List.mem_map.mp present
  split at touched
  next => exact touched ▸ rfl
  next different => exact absurd (by simp [touched]) different

theorem paced_consume (server : Server σ) {id : Nat} {bytes : List UInt8}
    (arrived : bytes <+: server.unread id) : Paced now server (server.consume now id bytes) := by
  have taken (other : Nat) := server.taken_consume now id other bytes arrived
  constructor
  case accepted =>
    rw [consume_eq]
    exact List.prefix_rfl
  case taken =>
    intro other
    rw [taken]
    split
    · exact List.prefix_append _ _
    · exact List.prefix_rfl
  case handlers =>
    intro handler present
    by_cases read : handler.connection = id ∧ bytes ≠ []
    · obtain ⟨rfl, some⟩ := read
      refine .inr ⟨since_of_mem_consume present some, .inr ?_⟩
      simpa [taken] using some
    · rw [not_and, not_not] at read
      refine .inl ⟨mem_of_mem_consume present read, ?_⟩
      rw [taken]
      split
      next same => rw [read same, List.append_nil]
      next => rfl

theorem paced_handFirst (coherent : server.Coherent) (now : Rat) :
    Paced now server (server.handFirst now) := by
  have taken (id : Nat) := (server.sameStream_handFirst now id).taken
  constructor
  case accepted =>
    rcases server.accepted_perform (.hand now) with same | ⟨id, _, more, _⟩
    · exact same ▸ List.prefix_rfl
    · exact more ▸ List.prefix_append _ _
  case taken => exact fun id => taken id ▸ List.prefix_rfl
  case handlers =>
    intro handler present
    simp only [handFirst] at present
    split at present
    next first rest waiter others queue _ =>
      rcases List.mem_append.mp present with before | new
      · exact .inl ⟨before, taken _⟩
      · obtain rfl : handler.connection = first :=
          waiter.connection_handler? now first _ (List.mem_map_of_mem new)
        have since : handler.since = now := by
          unfold Waiter.handler? at new
          split at new
          · rw [List.mem_singleton.mp new]
          · rw [List.mem_singleton.mp new]
          · exact absurd new List.not_mem_nil
        refine .inr ⟨since, .inl fun accepted => ?_⟩
        have ordered := (List.pairwise_append.mp coherent.ordered).2.2 _ accepted
          handler.connection (by simp [queue])
        exact Nat.lt_irrefl _ ordered
    next => exact .inl ⟨present, taken _⟩

theorem handlers_perform (server : Server σ) {move : Move}
    (hands : ∀ moment, move ≠ .hand moment)
    (reads : ∀ moment id bytes, move ≠ .consume moment id bytes) :
    ∀ handler ∈ (server.perform move).handlers, handler ∈ server.handlers := by
  have left (before : Server σ) (leaving : Handler) :
      ∀ handler ∈ (before.leave leaving).handlers, handler ∈ before.handlers := by
    rw [handlers_leave]
    exact fun handler present => (List.mem_filter.mp present).1
  cases move with
  | hand moment => exact absurd rfl (hands moment)
  | consume moment id bytes => exact absurd rfl (reads moment id bytes)
  | await waiter =>
      obtain ⟨waiters, records, finished, shape⟩ := server.await_shape waiter
      simp only [perform, shape]
      exact fun _ present => present
  | arrive arrival =>
      simp only [perform, handlers_register]
      exact fun _ present => present
  | leave handler => exact left server handler
  | live moment =>
      cases moment with
      | left handler => exact left _ handler
      | closeFailed id => exact fun _ present => present
      | woken waiter => exact fun _ present => present
  | _ => exact fun _ present => present

theorem paced_perform (coherent : server.Coherent) {starts : Server σ → Waiter → Prop} {move : Move}
    (fits : server.Fits starts move) (timed : move.isAt now) :
    Paced now server (server.perform move) := by
  have still (hands : ∀ moment, move ≠ .hand moment)
      (reads : ∀ moment id bytes, move ≠ .consume moment id bytes) :
      Paced now server (server.perform move) := by
    have taken (id : Nat) : (server.perform move).taken id = server.taken id := by
      have unread : Move.readFrom id [move] = [] := by
        cases move with
        | consume moment other bytes => exact absurd rfl (reads moment other bytes)
        | _ => rfl
      rw [taken_perform coherent fits, unread, List.append_nil]
    have accepted : server.accepted <+: (server.perform move).accepted := by
      rcases server.accepted_perform move with same | ⟨id, _, more, _⟩
      · exact same ▸ List.prefix_rfl
      · exact more ▸ List.prefix_append _ _
    exact ⟨accepted, fun id => taken id ▸ List.prefix_rfl,
      fun handler present => .inl ⟨server.handlers_perform hands reads handler present, taken _⟩⟩
  cases move with
  | hand moment => exact timed ▸ paced_handFirst coherent moment
  | consume moment id bytes => exact timed ▸ paced_consume server fits.2
  | _ => exact still (by simp) (by simp)

theorem Passes.paced (passes : server.Passes now other) (coherent : server.Coherent) :
    Paced now server other := by
  obtain ⟨moves, run, timed⟩ := passes
  induction run with
  | still => exact Paced.refl now server
  | move next run fits ih =>
      obtain ⟨before, last⟩ := List.forall_mem_append.mp timed
      have step := paced_perform (run.coherent coherent) fits (List.forall_mem_singleton.mp last)
      exact (ih before).trans step

/-- How far a server has come with a connection: nowhere before it is accepted, and then to the
bytes that are taken from it. -/
def progress (server : Server σ) (id : Nat) : Option (List UInt8) :=
  if id ∈ server.accepted then some (server.taken id) else none

omit [Outlet σ] in
theorem Paced.progress (paced : Paced now server other) (before : server.Coherent)
    (after : other.Coherent) {handler : Handler} (reads : handler ∈ other.handlers) :
    handler ∈ server.handlers ∧
        other.progress handler.connection = server.progress handler.connection ∨
      handler.since = now ∧
        other.progress handler.connection ≠ server.progress handler.connection := by
  have accepted := after.handled_accepted (List.mem_map_of_mem reads)
  simp only [Server.progress, if_pos accepted]
  rcases paced.handlers handler reads with ⟨waits, same⟩ | ⟨since, new⟩
  · exact .inl ⟨waits, by rw [if_pos (before.handled_accepted (List.mem_map_of_mem waits)), same]⟩
  · refine .inr ⟨since, ?_⟩
    split
    next early => simpa using new.resolve_left (not_not.mpr early)
    next => simp

omit [Outlet σ] in
theorem isDue_of_unlimited (unlimited : server.limit = none) (now : Rat) (handler : Handler) :
    server.isDue now handler = false := by
  simp [isDue, deadline?, unlimited]

omit [Outlet σ] in
theorem isDue_iff {limit : Rat} (limited : server.limit = some limit) (now : Rat)
    (handler : Handler) : server.isDue now handler = true ↔ limit ≤ now - handler.since := by
  simp only [isDue, deadline?, limited, Option.map_some, decide_eq_true_eq]
  constructor <;> intro <;> linarith

omit [Outlet σ] in
theorem limit_eq_none {period : Option Binary64} (timeout : server.timeout = limitTimeout period)
    (unlimited : ∀ value ∈ period, value.isZero = true ∨ value = .infinite false) :
    server.limit = none := by
  simp only [limit, timeout]
  cases period with
  | none => rfl
  | some value =>
      rcases unlimited value rfl with zero | rfl
      · simp [limitTimeout, Option.filter_some, zero]
      · rfl

omit [Outlet σ] in
theorem limit_eq_some {value : Binary64} {limit : Rat}
    (timeout : server.timeout = limitTimeout (some value)) (reads : value.toRat? = some limit)
    (positive : 0 < limit) : server.limit = some limit := by
  have nonzero : value.isZero = false := by
    cases value with
    | finite negative significand exponent =>
        refine beq_eq_false_iff_ne.mpr ?_
        rintro rfl
        simp only [Binary64.toRat?, if_true, Option.some.injEq] at reads
        exact absurd positive (reads ▸ lt_irrefl 0)
    | nan => rfl
    | infinite negative => rfl
  simp [Server.limit, timeout, limitTimeout, Option.filter_some, nonzero, reads]

/-- No read of a connection is over its time, and reads wait at all. -/
def Patient (server : Server σ) (now : Rat) (id : Nat) : Prop :=
  server.neverWaits = false ∧
    ∀ handler ∈ server.handlers, handler.connection = id → server.isDue now handler = false

omit [Outlet σ] in
theorem isDue_of_since (waits : server.neverWaits = false) {handler : Handler}
    (since : handler.since = now) : server.isDue now handler = false := by
  simp only [isDue, deadline?]
  simp only [neverWaits] at waits
  cases bound : server.limit with
  | none => rfl
  | some limit =>
      rw [bound] at waits
      simp only [decide_eq_false_iff_not, not_le, Option.map_some, since] at waits ⊢
      linarith

omit [Outlet σ] in
theorem Paced.patient (paced : Paced now server other) (timeout : other.timeout = server.timeout)
    {id : Nat} (patient : server.Patient now id) : other.Patient now id := by
  refine ⟨(neverWaits_congr timeout).trans patient.1, fun handler present same => ?_⟩
  rcases paced.handlers handler present with ⟨before, _⟩ | ⟨since, _⟩
  · rw [isDue_congr timeout]
    exact patient.2 handler before same
  · exact isDue_of_since ((neverWaits_congr timeout).trans patient.1) since

theorem lasting_perform (coherent : server.Coherent) {starts : Server σ → Waiter → Prop}
    {move : Move} (fits : server.Fits starts move) (timed : move.isAt now) {id : Nat}
    (patient : server.Patient now id) (opened : server.isOpen id = true) :
    (server.perform move).isOpen id = true ∨ server.ReadOut id ∨ server.stopped = true := by
  cases after : (server.perform move).isOpen id with
  | true => exact .inl rfl
  | false =>
      rcases closed_perform coherent fits (coherent.lt_nextId_of_isOpen opened) after with
        closed | ⟨ending, rfl⟩ | ⟨moment, rfl⟩ | rfl
      · simp [opened] at closed
      · exact .inr (.inl ⟨fits.2.1, by simp [fits.2.2]⟩)
      · obtain ⟨handler, present, same, never | due⟩ := fits
        · simp [patient.1] at never
        · obtain rfl : moment = now := timed
          simp [patient.2 handler present same] at due
      · exact .inr (.inr fits)

theorem Passes.lasting (passes : server.Passes now other) (coherent : server.Coherent) {id : Nat}
    (patient : server.Patient now id) (opened : server.isOpen id = true) :
    other.isOpen id = true ∨ other.ReadOut id ∨ other.stopped = true := by
  obtain ⟨moves, run, timed⟩ := passes
  induction run with
  | still => exact .inl opened
  | @move moves server next run fits ih =>
      obtain ⟨before, last⟩ := List.forall_mem_append.mp timed
      have here := run.coherent coherent
      have kept (either : server.ReadOut id ∨ server.stopped = true) :=
        either.imp (·.perform here.numbered next) (stopped_stays · next)
      rcases ih before with opened | either
      · have passes : Passes now _ server := ⟨moves, run, before⟩
        have waits := (passes.paced coherent).patient run.policy.2 patient
        have timed := List.forall_mem_singleton.mp last
        exact (lasting_perform here fits timed waits opened).imp_right kept
      · exact .inr (kept either)

end SteeringChannel.Server
