import SteeringChannel.Proofs.Relay.Course

/-!
The end of the input. The reader publishes it once, so it makes one consumer leave; whoever waits
beside that one, or comes later, waits until the relay is stopped.
-/

namespace SteeringChannel.Relay

/-- How far the news of the end has come, when so many consumers have come and so many are left:
the reader goes on, or the end is the last thing in the queue, or one consumer has taken it. -/
inductive Stage (comers : Nat) : Bool → List Signal → Nat → Prop
  | listening (events : List Event) : Stage comers true (events.map Signal.event) comers
  | told (events : List Event) : Stage comers false (events.map Signal.event ++ [.ended]) comers
  | gone {left : Nat} : left + 1 = comers → Stage comers false [] left

namespace Stage

variable {comers left : Nat} {reading : Bool} {signals rest : List Signal}

theorem publish (stage : Stage comers true signals left) (events : List Event) :
    Stage comers true (signals ++ events.map Signal.event) left := by
  cases stage with
  | listening before =>
      rw [← List.map_append]
      exact .listening (before ++ events)

theorem finish (stage : Stage comers true signals left) :
    Stage comers false (signals ++ [.ended]) left := by
  cases stage with
  | listening events => exact .told events

theorem join (stage : Stage comers reading signals left) :
    Stage (comers + 1) reading signals (left + 1) := by
  cases stage with
  | listening events => exact .listening events
  | told events => exact .told events
  | gone others => exact .gone (by omega)

theorem take_event {event : Event} (stage : Stage comers reading (.event event :: rest) left) :
    Stage comers reading rest left := by
  generalize shape : Signal.event event :: rest = signals at stage
  cases stage with
  | listening events =>
      cases events with
      | nil => exact nomatch shape
      | cons first others =>
          obtain ⟨_, rfl⟩ := List.cons.inj shape
          exact .listening others
  | told events =>
      cases events with
      | nil => exact nomatch (List.cons.inj shape).1
      | cons first others =>
          obtain ⟨_, rfl⟩ := List.cons.inj shape
          exact .told others
  | gone => exact nomatch shape

theorem take_ended (stage : Stage comers reading (.ended :: rest) (left + 1)) :
    Stage comers reading rest left := by
  generalize shape : Signal.ended :: rest = signals at stage
  generalize count : left + 1 = before at stage
  cases stage with
  | listening events => cases events <;> exact nomatch shape
  | told events =>
      cases events with
      | nil =>
          obtain ⟨_, rfl⟩ := List.cons.inj shape
          exact .gone count
      | cons first others => exact nomatch (List.cons.inj shape).1
  | gone => exact nomatch shape

theorem deliver {waiting : List Nat} (stage : Stage comers reading signals waiting.length) :
    Stage comers reading (deliver waiting signals).2.2 (deliver waiting signals).1.length := by
  induction signals generalizing waiting with
  | nil => cases waiting <;> exact stage
  | cons signal rest ih =>
      cases waiting with
      | nil => exact stage
      | cons consumer others =>
          cases signal with
          | event event =>
              have waits : (others ++ [consumer]).length = (consumer :: others).length := by simp
              exact ih (waits ▸ stage.take_event)
          | ended => exact ih stage.take_ended

theorem left_eq (stage : Stage comers false signals left) (handed : left = 0 ∨ signals = []) :
    left = comers - 1 ∧ (0 < comers → signals = []) := by
  generalize ended : false = reading at stage
  cases stage with
  | listening => exact nomatch ended
  | told events =>
      have nobody : comers = 0 := by simpa using handed
      constructor
      · omega
      · intro some
        omega
  | gone others => exact ⟨by omega, fun _ => rfl⟩

end Stage

namespace Turn

def isJoin : Turn → Bool
  | .join _ => true
  | _ => false

end Turn

namespace Midway

variable {now next : Midway} {comers : Nat}

structure Tells (now : Midway) (comers : Nat) : Prop where
  stage : ∀ queue, now.queue = some queue →
    Stage comers now.reading queue (now.waiting.length + now.busy.length)
  dealt : now.reading = false → now.cut = []

theorem Tells.still (tells : now.Tells comers) (queue : next.queue = now.queue)
    (reading : next.reading = now.reading) (cut : next.cut = now.cut)
    (waiting : next.waiting = now.waiting) (busy : next.busy = now.busy) : next.Tells comers := by
  constructor
  · rw [queue, reading, waiting, busy]
    exact tells.stage
  · rw [reading, cut]
    exact tells.dealt

theorem Tells.finish (tells : now.Tells comers) (reading : now.reading = true) (cut : next.cut = [])
    (queue : next.queue = (now.put .ended).queue) (ended : next.reading = false)
    (waiting : next.waiting = now.waiting) (busy : next.busy = now.busy) : next.Tells comers := by
  refine ⟨fun signals opened => ?_, fun _ => cut⟩
  rw [queue, put, Option.map_eq_some_iff] at opened
  obtain ⟨before, opened, rfl⟩ := opened
  have stage := tells.stage before opened
  rw [reading] at stage
  rw [ended, waiting, busy]
  exact stage.finish

theorem tells_read (tells : now.Tells comers) (reading : now.reading = true) (dealt : now.cut = [])
    (taken : now.read = some next) : next.Tells comers := by
  unfold read at taken
  split at taken
  next => cases taken
  next =>
    cases taken
    exact tells.still rfl rfl rfl rfl rfl
  next =>
    cases taken
    exact ⟨tells.stage, fun ended => absurd (reading.symm.trans ended) (by decide)⟩
  next =>
    cases taken
    exact tells.finish reading dealt rfl rfl rfl rfl

theorem tells_deal (tells : now.Tells comers) (taken : now.deal = some next) :
    next.Tells comers := by
  -- A reader that deals with something has not ended.
  have reading (some : now.cut ≠ []) : now.reading = true := by
    cases ended : now.reading with
    | true => rfl
    | false => exact absurd (tells.dealt ended) some
  unfold deal at taken
  split at taken
  next => cases taken
  next event rest cut =>
    have reading := reading (by simp [cut])
    split at taken
    next =>
      cases taken
      refine ⟨fun queue opened => ?_, fun ended => absurd (reading.symm.trans ended) (by decide)⟩
      simp only [put, Option.map_eq_some_iff] at opened
      obtain ⟨before, opened, rfl⟩ := opened
      have stage := tells.stage before opened
      rw [reading] at stage
      simpa [put, reading] using stage.publish [event]
    next shut =>
      cases taken
      refine ⟨fun queue opened => ?_, fun _ => rfl⟩
      have closed : now.queue = none := by simpa using shut
      cases closed.symm.trans opened
  next heard rest _ cut =>
    have reading := reading (by simp [cut])
    cases taken
    exact ⟨tells.stage, fun ended => absurd (reading.symm.trans ended) (by decide)⟩

theorem tells_take (tells : now.Tells comers) {consumer : Nat} (waits : consumer ∈ now.waiting)
    (taken : now.take consumer = some next) : next.Tells comers := by
  have fewer : (now.waiting.erase consumer).length + 1 = now.waiting.length := by
    have some := List.length_pos_of_mem waits
    rw [List.length_erase_of_mem waits]
    omega
  unfold take at taken
  split at taken
  next event rest opened =>
    cases taken
    refine ⟨fun queue shape => ?_, tells.dealt⟩
    cases shape
    have stage := (tells.stage _ opened).take_event
    have same : (now.waiting.erase consumer).length + (now.busy ++ [consumer]).length =
        now.waiting.length + now.busy.length := by
      rw [List.length_append, List.length_singleton]
      omega
    exact same ▸ stage
  next rest opened =>
    cases taken
    refine ⟨fun queue shape => ?_, tells.dealt⟩
    cases shape
    have stage := tells.stage _ opened
    have same : now.waiting.length + now.busy.length =
        (now.waiting.erase consumer).length + now.busy.length + 1 := by omega
    exact (same ▸ stage).take_ended
  next => cases taken

theorem tells_turn (tells : now.Tells comers) {turn : Turn} (taken : now.turn turn = some next) :
    next.Tells (comers + if turn.isJoin then 1 else 0) := by
  cases turn with
  | read =>
      obtain ⟨⟨reading, dealt⟩, taken⟩ := Option.ite_none_right_eq_some.mp taken
      exact tells_read tells reading dealt taken
  | deal => exact tells_deal tells taken
  | quit =>
      obtain ⟨⟨reading, dealt, _⟩, taken⟩ := Option.ite_none_right_eq_some.mp taken
      cases taken
      exact tells.finish reading dealt rfl rfl rfl rfl
  | take consumer =>
      obtain ⟨waits, taken⟩ := Option.ite_none_right_eq_some.mp taken
      exact tells_take tells waits taken
  | again consumer =>
      obtain ⟨busy, taken⟩ := Option.ite_none_right_eq_some.mp taken
      cases taken
      refine ⟨fun queue opened => ?_, tells.dealt⟩
      have open' : now.queue = some queue := opened
      have stage := tells.stage queue open'
      have some := List.length_pos_of_mem busy
      have same : now.waiting.length + 1 + (now.busy.erase consumer).length =
          now.waiting.length + now.busy.length := by
        rw [List.length_erase_of_mem busy]
        omega
      simpa [wait, open', same, Turn.isJoin] using stage
  | join consumer =>
      cases taken
      refine ⟨fun queue opened => ?_, tells.dealt⟩
      have open' : now.queue = some queue := opened
      have stage := (tells.stage queue open').join
      simpa [wait, open', Turn.isJoin, Nat.add_right_comm] using stage
  | arrive arrival =>
      cases taken
      exact tells.still rfl rfl rfl rfl rfl
  | stop =>
      cases taken
      exact tells.still rfl rfl rfl rfl rfl
  | shut =>
      obtain ⟨_, taken⟩ := Option.ite_none_right_eq_some.mp taken
      cases taken
      exact ⟨fun _ opened => (by cases opened), tells.dealt⟩

theorem tells_turns (tells : now.Tells comers) {course : List Turn}
    (taken : now.turns course = some next) : next.Tells (comers + course.countP Turn.isJoin) := by
  induction course generalizing now comers with
  | nil =>
      cases taken
      exact tells
  | cons turn rest ih =>
      simp only [turns, List.foldlM_cons, Option.bind_eq_bind, Option.bind_eq_some_iff] at taken
      obtain ⟨between, first, later⟩ := taken
      have told := ih (tells_turn tells first) later
      rwa [Nat.add_assoc, Nat.add_comm (if turn.isJoin = true then 1 else 0),
        ← List.countP_cons] at told

theorem tells_outset (relay : Relay) (tree : Filesystem) :
    (relay.outset tree).Tells relay.waiting.length :=
  ⟨fun _ opened => by cases opened; exact .listening [], nofun⟩

end Midway

namespace WayIn

def signals (way : WayIn) : List Signal := (way.line.map Inward.published).getD []

def Tells (way : WayIn) (comers : Nat) : Prop :=
  way.line.isSome = true ∧ Stage comers way.buffer.isSome way.signals way.waiting.length

end WayIn

theorem tells_iff {relay : Relay} {comers : Nat} :
    relay.wayIn.Tells comers ↔ ∃ line, relay.line = some line ∧
      Stage comers line.reading line.published relay.waiting.length := by
  cases opened : relay.line with
  | none => simp [WayIn.Tells, wayIn, opened]
  | some line =>
      cases reading : line.reading <;>
        simp [WayIn.Tells, WayIn.signals, WayIn.buffer, wayIn, opened, reading]

theorem tells_settleEvents {relay : Relay} {comers : Nat} (tells : relay.wayIn.Tells comers) :
    relay.settleEvents.wayIn.Tells comers := by
  obtain ⟨line, opened, stage⟩ := tells_iff.mp tells
  simp only [settleEvents, opened]
  exact tells_iff.mpr ⟨_, rfl, stage.deliver⟩

theorem tells_readArrival {relay : Relay} {line : OpenLine} {comers : Nat}
    (tells : relay.wayIn.Tells comers) (opened : relay.line = some line)
    (reading : line.reading = true) (arrival : Arrival) :
    (relay.readArrival line arrival).wayIn.Tells comers := by
  obtain ⟨same, found, stage⟩ := tells_iff.mp tells
  obtain rfl : line = same := Option.some.inj (opened.symm.trans found)
  rw [reading] at stage
  cases arrival with
  | bytes data => exact tells_iff.mpr ⟨_, rfl, by
      simpa [readArrival, reading, events] using
        stage.publish (events (hearAll line.buffer (readsOf data)).1)⟩
  | ending => exact tells_iff.mpr ⟨_, rfl, stage.finish⟩
  | failure number => exact tells_iff.mpr ⟨_, rfl, stage.finish⟩

theorem tells_readArrivals {relay : Relay} {comers : Nat} (tells : relay.wayIn.Tells comers)
    (input : List Arrival) : (relay.readArrivals input).1.wayIn.Tells comers := by
  induction input generalizing relay with
  | nil => exact tells
  | cons arrival rest ih =>
      simp only [readArrivals]
      split
      next => exact tells
      next line opened =>
        split
        next reading => exact ih (tells_readArrival tells opened reading arrival)
        next => exact tells

theorem tells_readDevice {relay : Relay} {comers : Nat} (tells : relay.wayIn.Tells comers) :
    relay.readDevice.wayIn.Tells comers := by
  unfold readDevice
  split
  next => exact tells
  next line opened =>
    split
    next => exact tells_settleEvents (tells_readArrivals tells relay.device.arrivals)
    next => exact tells

theorem tells_consume {relay : Relay} {comers : Nat} (tells : relay.wayIn.Tells comers) :
    relay.consume.wayIn.Tells (comers + 1) := by
  obtain ⟨line, opened, stage⟩ := tells_iff.mp tells
  refine tells_settleEvents (tells_iff.mpr ⟨line, opened, ?_⟩)
  simpa [isOpen, opened] using stage.join

theorem tells_perform {relay : Relay} {comers : Nat} (tells : relay.wayIn.Tells comers) {act : Act}
    (stays : act.stays) :
    (relay.perform act).wayIn.Tells (comers + if act = .consume then 1 else 0) := by
  cases act with
  | start tree => exact stays.elim
  | stop => exact stays.elim
  | forward raw => exact wayIn_forward relay raw ▸ tells
  | consume => exact tells_consume tells
  | undergo happening =>
      cases happening with
      | arrival arrival => exact tells_readDevice tells
      | lateArrival arrival => exact tells
      | writeFailure number => exact tells
      | hold => exact tells
      | release => exact wayIn_release relay ▸ tells

theorem tells_run {relay : Relay} {comers : Nat} (tells : relay.wayIn.Tells comers)
    {acts : List Act} (stays : ∀ act ∈ acts, act.stays) :
    (relay.run acts).wayIn.Tells (comers + acts.count .consume) := by
  induction acts generalizing relay comers with
  | nil => exact tells
  | cons act rest ih =>
      obtain ⟨here, later⟩ := List.forall_mem_cons.mp stays
      have total : comers + (act :: rest).count .consume =
          comers + (if act = .consume then 1 else 0) + rest.count .consume := by
        rw [List.count_cons]
        simp only [beq_iff_eq]
        omega
      rw [total]
      exact ih (tells_perform tells here) later

theorem tells_start {relay : Relay} {tree : Filesystem} (started : (relay.start tree).2.2 = none) :
    (relay.start tree).1.wayIn.Tells relay.waiting.length := by
  by_cases device : relay.path = relay.device.name
  · rw [start_eq device started]
    exact tells_readDevice (tells_iff.mpr ⟨{}, rfl, .listening []⟩)
  · simp only [start, if_neg device] at started ⊢
    cases found : openPlain tree relay.path with
    | error error => simp [found] at started
    | ok input =>
        have opened : relay.openFile.wayIn.Tells relay.waiting.length :=
          tells_iff.mpr ⟨_, rfl, .listening []⟩
        exact tells_settleEvents (tells_readArrivals opened input)

def atEnd (relay : Relay) : Bool := relay.line.any fun line => !line.reading

theorem atEnd_iff {relay : Relay} {line : OpenLine} (opened : relay.line = some line) :
    relay.atEnd = true ↔ line.reading = false := by
  simp [atEnd, opened]

theorem consumersEnded_iff (relay : Relay) :
    (∀ consumer, relay.consumerEnded consumer = true) ↔ relay.waiting = [] := by
  simp only [consumerEnded, Bool.not_eq_true', List.contains_eq_mem, decide_eq_false_iff_not,
    List.eq_nil_iff_forall_not_mem]

theorem Midway.Rests.handed {moment : Midway} {relay : Relay} (rests : moment.Rests relay)
    {line : OpenLine} (opened : relay.line = some line) :
    relay.waiting = [] ∨ line.published = [] := by
  obtain ⟨_, _, _, handed⟩ := Midway.settled_iff.mp rests.settled
  obtain ⟨queue, _⟩ := rests.shows.opened opened
  have waiting : moment.waiting = relay.waiting := rests.shows.waiting
  rwa [waiting, queue, Option.getD_some] at handed

/-- At the end of the input the events that are left are delivered if there is a consumer, and then
one consumer ends. All others wait, whether they have come before the end or after it; so nobody
waits just if there has been one consumer at most. It is so in every order of the turns, and after
every run of acts. -/
theorem end_releases_one {relay : Relay} {tree : Filesystem}
    (started : (relay.start tree).2.2 = none) :
    (∀ course moment, (relay.outset tree).turns course = some moment →
      moment.queue ≠ none → moment.reading = false → moment.Settled →
      let comers := relay.waiting.length + course.countP Turn.isJoin
      moment.waiting.length = comers - 1 ∧ (moment.waiting = [] ↔ comers ≤ 1) ∧
      (0 < comers →
        moment.received = relay.received ++ events (hearAll [] moment.reads).1)) ∧
    ∀ acts : List Act, (∀ act ∈ acts, act.stays) →
      let now := (relay.start tree).1.run acts
      let comers := relay.waiting.length + acts.count .consume
      now.atEnd = true →
        now.waiting.length = comers - 1 ∧
        ((∀ consumer, now.consumerEnded consumer = true) ↔ comers ≤ 1) ∧
        (0 < comers →
          now.received = relay.received ++ (listen (some []) (relay.input tree acts)).1) := by
  constructor
  · intro course moment taken opened ended settled comers
    obtain ⟨queue, queued⟩ := Option.ne_none_iff_exists'.mp opened
    have tells := Midway.tells_turns (Midway.tells_outset relay tree) taken
    have sound := Midway.Reaches.sound ⟨course, taken⟩ (Midway.sound_outset relay tree)
    obtain ⟨dealt, free, _, handed⟩ := Midway.settled_iff.mp settled
    have stage := tells.stage queue queued
    rw [ended, free, List.length_nil, Nat.add_zero] at stage
    obtain ⟨left, empty⟩ := stage.left_eq (by simpa [queued] using handed)
    refine ⟨left, ?_, fun some => ?_⟩
    · rw [← List.length_eq_zero_iff, left]
      omega
    · have all := sound.handed queue queued
      have heard := sound.heard (Or.inl opened)
      rw [dealt, events, List.filterMap_nil, List.append_nil] at heard
      rw [empty some, List.filterMap_nil, List.append_nil, heard] at all
      exact all
  · intro acts stays now comers ended
    obtain ⟨line, opened, stage⟩ := tells_iff.mp (tells_run (tells_start started) stays)
    obtain ⟨begun, _, rests⟩ := Midway.rests_start started
    obtain ⟨moment, _, rests⟩ := Midway.rests_run rests stays
    rw [(atEnd_iff opened).mp ended] at stage
    obtain ⟨left, empty⟩ := stage.left_eq (by simpa using rests.handed opened)
    refine ⟨left, ?_, fun some => ?_⟩
    · rw [consumersEnded_iff, ← List.length_eq_zero_iff, left]
      omega
    · have published := (run_in_order started stays).1
      rw [Relay.published, opened, Option.map_some, Option.getD_some, empty some,
        List.filterMap_nil, List.append_nil] at published
      exact published

/-- A consumer that is alone gets its event and ends with the failed read. Of two that wait and one
that comes late, the first ends; and so does one of two when the turns are taken one by one. -/
theorem end_releases_one_alone_and_of_three :
    let up := Event.keyUpWord ++ [0x20, 0x42, lineFeed]
    let relay : Relay := { path := "dev0" }
    let alone : List Act := [.consume, .feed up, .undergo (.arrival (.failure 5))]
    let three : List Act := [.consume, .consume, .undergo (.arrival .ending), .consume]
    let course : List Turn := [.join 0, .arrive .ending, .join 1, .read, .take 1]
    let moment : Midway :=
      { path := "dev0", input := [], reading := false, waiting := [0]
        records := [record Journal.info "Relay device dev0 reached end of input"] }
    (relay.start .empty).2.2 = none ∧ (∀ act ∈ alone, act.stays) ∧ (∀ act ∈ three, act.stays) ∧
      ((relay.start .empty).1.run alone).atEnd = true ∧
      (∀ consumer, ((relay.start .empty).1.run alone).consumerEnded consumer = true) ∧
      ((relay.start .empty).1.run alone).received = [.keyUp 0x42] ∧
      ((relay.start .empty).1.run three).atEnd = true ∧
      ((relay.start .empty).1.run three).waiting.length = 2 ∧
      (relay.outset .empty).turns course = some moment ∧ moment.queue ≠ none ∧ moment.Settled ∧
      moment.waiting.length = 1 := by
  intro up relay alone three course moment
  have started : (relay.start .empty).2.2 = none := rfl
  have stays : ∀ act ∈ alone, act.stays := by simp [alone, Act.stays, Act.feed]
  have stay : ∀ act ∈ three, act.stays := by simp [three, Act.stays]
  have ended : ((relay.start .empty).1.run alone).atEnd = true := by decide +kernel
  have finished : ((relay.start .empty).1.run three).atEnd = true := by decide +kernel
  have heard : (listen (some []) (relay.input .empty alone)).1 = [.keyUp 0x42] := by decide +kernel
  have taken : (relay.outset .empty).turns course = some moment := by decide +kernel
  have settled : moment.Settled :=
    Midway.settled_iff.mpr ⟨rfl, rfl, (absurd · Bool.false_ne_true), Or.inr rfl⟩
  obtain ⟨moments, runs⟩ := end_releases_one started
  obtain ⟨_, everybody, received⟩ := runs alone stays ended
  obtain ⟨left, _⟩ := runs three stay finished
  obtain ⟨waits, _⟩ := moments course moment taken (Option.some_ne_none []) rfl settled
  refine ⟨started, stays, stay, ended, everybody.mpr (by decide), ?_, finished, left, taken,
    Option.some_ne_none [], settled, waits⟩
  rw [received (by decide), heard]
  rfl

/-- Two consumers wait when the input ends, or one comes after the first has ended. -/
theorem end_leaves_others_waiting :
    let relay : Relay := { path := "dev0" }
    let together := (relay.start .empty).1.run [.consume, .consume, .undergo (.arrival .ending)]
    let late := (relay.start .empty).1.run [.consume, .undergo (.arrival .ending), .consume]
    (relay.start .empty).2.2 = none ∧
      together.atEnd = true ∧ together.consumerEnded 0 = true ∧ together.consumerEnded 1 = false ∧
      late.atEnd = true ∧ late.consumerEnded 0 = true ∧ late.consumerEnded 1 = false := by
  decide

end SteeringChannel.Relay
