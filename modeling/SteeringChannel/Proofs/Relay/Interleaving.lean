import SteeringChannel.Proofs.Relay.Framing

/-!
The way in, one turn at a time. The reader, the consumers, the device and whoever stops the relay take
their turns in any order. In every order the consumers receive what the reader publishes, from the
beginning, in order and once; and nothing is published any more once the queue has been shut.
-/

namespace SteeringChannel.Relay

/-- The way in between two turns, with all that the reader has read and published so far. There is no
queue once it has been shut. A consumer that has received an event is busy until it waits again. -/
structure Midway where
  path : String
  input : List Arrival
  buffer : List UInt8 := []
  cut : List Heard := []
  reading : Bool := true
  stopping : Bool := false
  queue : Option (List Signal) := some []
  waiting : List Nat := []
  busy : List Nat := []
  received : List Event := []
  records : List Journal.Record := []
  reads : List (List UInt8) := []
  published : List Event := []
  deriving DecidableEq, Repr

inductive Turn where
  -- The reader reads, deals with a line that it has cut off, or leaves because of a stop.
  | read
  | deal
  | quit
  -- A consumer takes what comes next in the queue, comes back for more, or comes for the first time.
  | take (consumer : Nat)
  | again (consumer : Nat)
  | join (consumer : Nat)
  | arrive (arrival : Arrival)
  -- A stop is announced to the reader before the queue is shut.
  | stop
  | shut
  deriving DecidableEq, Repr

def Turn.isOwn : Turn → Bool
  | .read | .deal | .quit | .take _ | .again _ => true
  | .join _ | .arrive _ | .stop | .shut => false

namespace Midway

def put (now : Midway) (signal : Signal) : Midway :=
  { now with queue := now.queue.map (· ++ [signal]) }

def wait (now : Midway) (consumer : Nat) : Midway :=
  { now with waiting := if now.queue.isSome then now.waiting ++ [consumer] else now.waiting }

def note (now : Midway) : Arrival → Option Journal.Record
  | .failure number =>
      if now.stopping then none else arrivalRecord? { path := now.path } (.failure number)
  | arrival => arrivalRecord? { path := now.path } arrival

def read (now : Midway) : Option Midway :=
  match now.input with
  | [] => none
  | .bytes [] :: rest => some { now with input := rest }
  | .bytes data :: rest =>
      let heard := hear now.buffer (data.take readLimit)
      some { now with
        input := if data.length ≤ readLimit then rest else .bytes (data.drop readLimit) :: rest
        buffer := heard.2
        cut := heard.1
        reads := now.reads ++ [data.take readLimit] }
  | arrival :: rest =>
      some ({ now with
        input := rest, reading := false
        records := now.records ++ (now.note arrival).toList }.put .ended)

def deal (now : Midway) : Option Midway :=
  match now.cut with
  | [] => none
  | .event event :: rest =>
      if now.queue.isSome then
        some ({ now with cut := rest, published := now.published ++ [event] }.put (.event event))
      else some { now with cut := [], reading := false }
  | heard :: rest =>
      some { now with cut := rest, records := now.records ++ (heardRecord? heard).toList }

def take (now : Midway) (consumer : Nat) : Option Midway :=
  match now.queue with
  | some (.event event :: rest) =>
      some { now with
        queue := some rest
        waiting := now.waiting.erase consumer
        busy := now.busy ++ [consumer]
        received := now.received ++ [event] }
  | some (.ended :: rest) =>
      some { now with queue := some rest, waiting := now.waiting.erase consumer }
  | _ => none

def turn (now : Midway) : Turn → Option Midway
  | .read => if now.reading ∧ now.cut = [] then now.read else none
  | .deal => now.deal
  | .quit =>
      if now.reading ∧ now.cut = [] ∧ now.stopping then
        some ({ now with reading := false }.put .ended)
      else none
  | .take consumer => if consumer ∈ now.waiting then now.take consumer else none
  | .again consumer =>
      if consumer ∈ now.busy then
        some ({ now with busy := now.busy.erase consumer }.wait consumer)
      else none
  | .join consumer => some (now.wait consumer)
  | .arrive arrival => some { now with input := Device.join now.input arrival }
  | .stop => some { now with stopping := true }
  | .shut => if now.stopping then some { now with queue := none, waiting := [] } else none

def turns (now : Midway) (course : List Turn) : Option Midway := course.foldlM turn now

def Reaches (now last : Midway) : Prop := ∃ course, now.turns course = some last

def Settled (now : Midway) : Prop := ∀ turn : Turn, turn.isOwn = true → now.turn turn = none

variable {now next last : Midway}

theorem Reaches.refl (now : Midway) : now.Reaches now := ⟨[], rfl⟩

theorem Reaches.one (turn : Turn) (taken : now.turn turn = some next) : now.Reaches next :=
  ⟨[turn], by simp [turns, taken]⟩

theorem Reaches.trans (first : now.Reaches next) (second : next.Reaches last) :
    now.Reaches last := by
  obtain ⟨before, first⟩ := first
  obtain ⟨after, second⟩ := second
  refine ⟨before ++ after, ?_⟩
  unfold turns at first second ⊢
  rw [List.foldlM_append, first]
  exact second

theorem Reaches.keeps (kept : Midway → Prop)
    (step : ∀ now next turn, kept now → now.turn turn = some next → kept next)
    (reached : now.Reaches last) (start : kept now) : kept last := by
  obtain ⟨course, reached⟩ := reached
  induction course generalizing now with
  | nil =>
      cases reached
      exact start
  | cons turn rest ih =>
      simp only [turns, List.foldlM_cons, Option.bind_eq_bind, Option.bind_eq_some_iff] at reached
      obtain ⟨between, taken, later⟩ := reached
      exact ih (step now between turn start taken) later

structure Sound (first : List Event) (now : Midway) : Prop where
  handed : ∀ queue, now.queue = some queue →
    now.received ++ queue.filterMap Signal.event? = first ++ now.published
  received : now.received <+: first ++ now.published
  heard : now.queue ≠ none ∨ now.reading = true →
    now.published ++ events now.cut = events (hearAll [] now.reads).1
  published : now.published <+: events (hearAll [] now.reads).1
  buffer : now.buffer = (hearAll [] now.reads).2

variable {first : List Event}

theorem Sound.still (sound : now.Sound first) (received : next.received = now.received)
    (published : next.published = now.published) (reads : next.reads = now.reads)
    (buffer : next.buffer = now.buffer) (cut : events next.cut = events now.cut)
    (queue : next.queue.map (List.filterMap Signal.event?) =
      now.queue.map (List.filterMap Signal.event?))
    (reading : next.reading = true → now.reading = true) : next.Sound first := by
  constructor
  · intro signals opened
    rw [opened, Option.map_some, eq_comm, Option.map_eq_some_iff] at queue
    obtain ⟨before, opened, same⟩ := queue
    rw [received, published, ← same]
    exact sound.handed before opened
  · rw [received, published]
    exact sound.received
  · intro working
    rw [published, cut, reads]
    refine sound.heard (working.imp (fun opened closed => opened ?_) reading)
    simpa [closed] using queue
  · rw [published, reads]
    exact sound.published
  · rw [buffer, reads]
    exact sound.buffer

theorem events_put_ended (now : Midway) :
    (now.put .ended).queue.map (List.filterMap Signal.event?) =
      now.queue.map (List.filterMap Signal.event?) := by
  cases queue : now.queue <;> simp [put, queue, Signal.event?]

theorem sound_read (sound : now.Sound first) (reading : now.reading = true) (dealt : now.cut = [])
    (taken : now.read = some next) : next.Sound first := by
  unfold read at taken
  split at taken
  next => exact nomatch taken
  next =>
    cases taken
    exact sound.still rfl rfl rfl rfl rfl rfl id
  next data rest _ _ =>
    cases taken
    have whole := sound.heard (Or.inr reading)
    rw [dealt, events, List.filterMap_nil, List.append_nil] at whole
    have later := hearAll_append [] now.reads [data.take readLimit]
    simp only [hearAll, List.append_nil, ← sound.buffer] at later
    constructor
    · exact sound.handed
    · exact sound.received
    · intro _
      rw [later, events_append, ← whole]
    · rw [later, events_append, ← whole]
      exact List.prefix_append ..
    · rw [later]
  next =>
    cases taken
    exact sound.still rfl rfl rfl rfl rfl (events_put_ended now)
      (absurd · Bool.false_ne_true)

theorem sound_deal (sound : now.Sound first) (taken : now.deal = some next) :
    next.Sound first := by
  unfold deal at taken
  split at taken
  next => exact nomatch taken
  next event rest cut =>
    split at taken
    next opened =>
      cases taken
      obtain ⟨queue, opened⟩ := Option.isSome_iff_exists.mp opened
      have handed := sound.handed queue opened
      have whole := sound.heard (Or.inl (by simp [opened]))
      have cut : events now.cut = event :: events rest := by
        rw [cut]
        rfl
      have whole : now.published ++ [event] ++ events rest = events (hearAll [] now.reads).1 := by
        rw [← whole, cut, List.append_assoc]
        rfl
      constructor
      · intro later shape
        rw [put, opened, Option.map_some, Option.some.injEq] at shape
        rw [← shape, List.filterMap_append, ← List.append_assoc, put, handed, List.append_assoc]
        rfl
      · exact sound.received.trans (by simp only [put, ← List.append_assoc, List.prefix_append])
      · exact fun _ => whole
      · simp only [put, ← whole, List.prefix_append]
      · exact sound.buffer
    next shut =>
      cases taken
      have closed : now.queue = none := by simpa using shut
      constructor
      · exact sound.handed
      · exact sound.received
      · exact fun working => working.elim (absurd closed) (absurd · Bool.false_ne_true)
      · exact sound.published
      · exact sound.buffer
  next heard rest silent cut =>
    cases taken
    refine sound.still rfl rfl rfl rfl ?_ rfl id
    rw [cut]
    cases heard with
    | event event => exact absurd rfl (silent event)
    | ignored line => rfl
    | discarded bytes => rfl

theorem sound_take (sound : now.Sound first) {consumer : Nat}
    (taken : now.take consumer = some next) : next.Sound first := by
  unfold take at taken
  split at taken
  next event rest opened =>
    cases taken
    have handed := sound.handed _ opened
    have whole : now.received ++ [event] ++ rest.filterMap Signal.event? =
        first ++ now.published := by
      rw [← handed, List.append_assoc]
      rfl
    constructor
    · intro queue shape
      cases shape
      exact whole
    · simp only [← whole, List.prefix_append]
    · exact fun _ => sound.heard (Or.inl (by simp [opened]))
    · exact sound.published
    · exact sound.buffer
  next rest opened =>
    cases taken
    refine sound.still rfl rfl rfl rfl rfl ?_ id
    rw [opened]
    rfl
  next => exact nomatch taken

theorem sound_turn (sound : now.Sound first) {turn : Turn} (taken : now.turn turn = some next) :
    next.Sound first := by
  cases turn with
  | read =>
      obtain ⟨⟨reading, dealt⟩, taken⟩ := Option.ite_none_right_eq_some.mp taken
      exact sound_read sound reading dealt taken
  | deal => exact sound_deal sound taken
  | quit =>
      obtain ⟨_, taken⟩ := Option.ite_none_right_eq_some.mp taken
      cases taken
      exact sound.still rfl rfl rfl rfl rfl (events_put_ended now)
        (absurd · Bool.false_ne_true)
  | take consumer =>
      obtain ⟨_, taken⟩ := Option.ite_none_right_eq_some.mp taken
      exact sound_take sound taken
  | again consumer =>
      obtain ⟨_, taken⟩ := Option.ite_none_right_eq_some.mp taken
      cases taken
      exact sound.still rfl rfl rfl rfl rfl rfl id
  | join consumer =>
      cases taken
      exact sound.still rfl rfl rfl rfl rfl rfl id
  | arrive arrival =>
      cases taken
      exact sound.still rfl rfl rfl rfl rfl rfl id
  | stop =>
      cases taken
      exact sound.still rfl rfl rfl rfl rfl rfl id
  | shut =>
      obtain ⟨_, taken⟩ := Option.ite_none_right_eq_some.mp taken
      cases taken
      constructor
      · exact nofun
      · exact sound.received
      · exact fun working => working.elim (absurd rfl) fun reading => sound.heard (Or.inr reading)
      · exact sound.published
      · exact sound.buffer

theorem Reaches.sound (reached : now.Reaches last) (sound : now.Sound first) : last.Sound first :=
  reached.keeps (Sound first) (fun _ _ _ sound taken => sound_turn sound taken) sound

/-! After the queue has been shut. -/

structure Shut (now : Midway) : Prop where
  stopping : now.stopping = true
  queue : now.queue = none
  waiting : now.waiting = []

structure Silent (now next : Midway) : Prop where
  shut : next.Shut
  received : next.received = now.received
  records : ∃ notes, next.records = now.records ++ notes ∧
    ∀ note ∈ notes, note.level ≠ Journal.warning

theorem Silent.trans (first : now.Silent next) (second : next.Silent last) : now.Silent last := by
  obtain ⟨notes, grown, quiet⟩ := first.records
  obtain ⟨more, later, still⟩ := second.records
  refine ⟨second.shut, second.received.trans first.received, notes ++ more, ?_, ?_⟩
  · rw [later, grown, List.append_assoc]
  · exact List.forall_mem_append.mpr ⟨quiet, still⟩

theorem Shut.goesOn (shut : now.Shut) (stopping : next.stopping = now.stopping)
    (queue : next.queue = now.queue) (waiting : next.waiting = now.waiting)
    (received : next.received = now.received) (notes : List Journal.Record)
    (records : next.records = now.records ++ notes)
    (quiet : ∀ note ∈ notes, note.level ≠ Journal.warning) : now.Silent next := by
  refine ⟨⟨?_, ?_, ?_⟩, received, notes, records, quiet⟩
  · rw [stopping, shut.stopping]
  · rw [queue, shut.queue]
  · rw [waiting, shut.waiting]

theorem Shut.still (shut : now.Shut) (stopping : next.stopping = now.stopping)
    (queue : next.queue = now.queue) (waiting : next.waiting = now.waiting)
    (received : next.received = now.received) (records : next.records = now.records) :
    now.Silent next :=
  shut.goesOn stopping queue waiting received [] (by rw [records, List.append_nil]) (by simp)

theorem silent_read (shut : now.Shut) (taken : now.read = some next) : now.Silent next := by
  unfold read at taken
  split at taken
  next => exact nomatch taken
  next =>
    cases taken
    exact shut.still rfl rfl rfl rfl rfl
  next =>
    cases taken
    exact shut.still rfl rfl rfl rfl rfl
  next arrival rest _ _ _ =>
    cases taken
    have info : Journal.info ≠ Journal.warning := by decide
    refine shut.goesOn rfl ?_ rfl rfl (now.note arrival).toList rfl ?_
    · simp [put, shut.queue]
    · cases arrival with
      | bytes data => exact nofun
      | ending => exact List.forall_mem_singleton.mpr info
      | failure number => simp [note, shut.stopping]

theorem silent_deal (shut : now.Shut) (taken : now.deal = some next) : now.Silent next := by
  unfold deal at taken
  split at taken
  next => exact nomatch taken
  next =>
    rw [if_neg (by simp [shut.queue])] at taken
    cases taken
    exact shut.still rfl rfl rfl rfl rfl
  next heard rest _ _ =>
    cases taken
    have debug : Journal.debug ≠ Journal.warning := by decide
    refine shut.goesOn rfl rfl rfl rfl (heardRecord? heard).toList rfl ?_
    cases heard with
    | event event => exact nofun
    | ignored line => exact List.forall_mem_singleton.mpr debug
    | discarded bytes => exact List.forall_mem_singleton.mpr debug

theorem silent_turn (shut : now.Shut) {turn : Turn} (taken : now.turn turn = some next) :
    now.Silent next := by
  cases turn with
  | read =>
      obtain ⟨_, taken⟩ := Option.ite_none_right_eq_some.mp taken
      exact silent_read shut taken
  | deal => exact silent_deal shut taken
  | quit =>
      obtain ⟨_, taken⟩ := Option.ite_none_right_eq_some.mp taken
      cases taken
      exact shut.still rfl (by simp [put, shut.queue]) rfl rfl rfl
  | take consumer => simp [Midway.turn, shut.waiting] at taken
  | again consumer =>
      obtain ⟨_, taken⟩ := Option.ite_none_right_eq_some.mp taken
      cases taken
      exact shut.still rfl rfl (by simp [wait, shut.queue]) rfl rfl
  | join consumer =>
      cases taken
      exact shut.still rfl rfl (by simp [wait, shut.queue]) rfl rfl
  | arrive arrival =>
      cases taken
      exact shut.still rfl rfl rfl rfl rfl
  | stop =>
      cases taken
      exact shut.still shut.stopping.symm rfl rfl rfl rfl
  | shut =>
      obtain ⟨_, taken⟩ := Option.ite_none_right_eq_some.mp taken
      cases taken
      exact shut.still rfl shut.queue.symm shut.waiting.symm rfl rfl

theorem Reaches.silent (shut : now.Shut) (reached : now.Reaches last) : now.Silent last := by
  have start : now.Silent now := shut.still rfl rfl rfl rfl rfl
  exact reached.keeps now.Silent (fun between next turn silent taken =>
    silent.trans (silent_turn silent.shut taken)) start

theorem isSome_queue {turn : Turn} (other : turn ≠ .shut) (taken : now.turn turn = some next) :
    next.queue.isSome = now.queue.isSome := by
  cases turn with
  | read =>
      obtain ⟨_, taken⟩ := Option.ite_none_right_eq_some.mp taken
      unfold read at taken
      split at taken
      all_goals cases taken
      all_goals simp [put]
  | deal =>
      rw [Midway.turn] at taken
      unfold deal at taken
      split at taken
      next => exact nomatch taken
      next =>
        split at taken
        all_goals cases taken
        all_goals simp [put]
      next =>
        cases taken
        rfl
  | quit =>
      obtain ⟨_, taken⟩ := Option.ite_none_right_eq_some.mp taken
      cases taken
      simp [put]
  | take consumer =>
      obtain ⟨_, taken⟩ := Option.ite_none_right_eq_some.mp taken
      unfold take at taken
      split at taken
      next opened =>
        cases taken
        rw [opened]
        rfl
      next opened =>
        cases taken
        rw [opened]
        rfl
      next => exact nomatch taken
  | again consumer =>
      obtain ⟨_, taken⟩ := Option.ite_none_right_eq_some.mp taken
      cases taken
      rfl
  | join consumer =>
      cases taken
      rfl
  | arrive arrival =>
      cases taken
      rfl
  | stop =>
      cases taken
      rfl
  | shut => exact absurd rfl other

theorem Reaches.shut (opened : now.queue ≠ none) (reached : now.Reaches last)
    (closed : last.queue = none) : last.Shut := by
  refine reached.keeps (fun now => now.queue = none → now.Shut) ?_ (absurd · opened) closed
  intro between next turn shut taken closed
  by_cases shuts : turn = .shut
  · subst shuts
    obtain ⟨stopping, taken⟩ := Option.ite_none_right_eq_some.mp taken
    cases taken
    exact ⟨stopping, rfl, rfl⟩
  · have same := isSome_queue shuts taken
    have before : between.queue = none := by simpa [closed] using same
    exact (silent_turn (shut before) taken).shut

theorem deal_eq_none : now.deal = none ↔ now.cut = [] := by
  unfold deal
  split
  next cut => simp [cut]
  next cut =>
    rw [cut]
    split <;> simp
  next cut => simp [cut]

theorem read_eq_none : now.read = none ↔ now.input = [] := by
  unfold read
  split
  next input => simp [input]
  next input => simp [input]
  next input => simp [input]
  next input => simp [input]

theorem take_eq_none {consumer : Nat} : now.take consumer = none ↔ now.queue.getD [] = [] := by
  unfold take
  split
  next queue => simp [queue]
  next queue => simp [queue]
  next noEvent noEnd =>
    cases queue : now.queue with
    | none => simp
    | some signals =>
        cases signals with
        | nil => simp
        | cons signal rest =>
            cases signal with
            | event event => exact absurd queue (noEvent event rest)
            | ended => exact absurd queue (noEnd rest)

theorem settled_iff : now.Settled ↔
    now.cut = [] ∧ now.busy = [] ∧
      (now.reading = true → now.input = [] ∧ now.stopping = false) ∧
      (now.waiting = [] ∨ now.queue.getD [] = []) := by
  constructor
  · intro settled
    have dealt : now.cut = [] := deal_eq_none.mp (settled .deal rfl)
    refine ⟨dealt, ?_, fun reading => ?_, ?_⟩
    · refine List.eq_nil_iff_forall_not_mem.mpr fun consumer busy => ?_
      have again := settled (.again consumer) rfl
      simp [turn, busy] at again
    · have read := settled .read rfl
      have quit := settled .quit rfl
      simp only [turn, reading, dealt, if_true, and_self, read_eq_none] at read
      simp only [turn, reading, dealt, true_and, ite_eq_right_iff, reduceCtorEq, imp_false,
        Bool.not_eq_true] at quit
      exact ⟨read, quit⟩
    · cases waiting : now.waiting with
      | nil => exact Or.inl rfl
      | cons consumer others =>
          have take := settled (.take consumer) rfl
          simp only [turn, waiting, List.mem_cons_self, if_true, take_eq_none] at take
          exact Or.inr take
  · rintro ⟨dealt, free, read, handed⟩ turn own
    cases turn with
    | read =>
        rw [Midway.turn]
        split
        next working => exact read_eq_none.mpr (read working.1).1
        next => rfl
    | deal => exact deal_eq_none.mpr dealt
    | quit =>
        rw [Midway.turn]
        split
        next working => exact absurd working.2.2 (by simp [(read working.1).2])
        next => rfl
    | take consumer =>
        rw [Midway.turn]
        split
        next waits =>
          rcases handed with nobody | empty
          · simp [nobody] at waits
          · exact take_eq_none.mpr empty
        next => rfl
    | again consumer => simp [Midway.turn, free]
    | join consumer => exact nomatch own
    | arrive arrival => exact nomatch own
    | stop => exact nomatch own
    | shut => exact nomatch own

theorem Sound.whole (sound : now.Sound first) (shut : now.queue = none → now.Shut)
    (settled : now.Settled) (waits : now.waiting ≠ []) :
    now.received = first ++ now.published ∧
      now.published = events (hearAll [] now.reads).1 := by
  obtain ⟨dealt, _, _, handed⟩ := settled_iff.mp settled
  cases queue : now.queue with
  | none => exact absurd (shut queue).waiting waits
  | some signals =>
      have empty : signals = [] := by simpa [queue] using handed.resolve_left waits
      have all := sound.handed signals queue
      have heard := sound.heard (Or.inl (by simp [queue]))
      rw [empty, List.filterMap_nil, List.append_nil] at all
      rw [dealt, events, List.filterMap_nil, List.append_nil] at heard
      exact ⟨all, heard⟩

end Midway
end SteeringChannel.Relay
