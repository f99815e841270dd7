import SteeringChannel.Proofs.Relay.Framing

/-!
Events on their way to the consumers. What the reader makes of its input is handed over in that order,
each event to one consumer; as long as a consumer waits, nothing is left over for another. After a
stop nobody gets anything, and no failed read is reported.
-/

namespace SteeringChannel.Relay

/-- What a reader with this buffer makes of its input, and its buffer afterwards. A reader that has
ended has no buffer. -/
def listen : Option (List UInt8) → List Arrival → List Event × Option (List UInt8)
  | some buffer, .bytes data :: rest =>
      let heard := hearAll buffer (readsOf data)
      let others := listen (some heard.2) rest
      (events heard.1 ++ others.1, others.2)
  | some _, _ :: _ => ([], none)
  | buffer, [] => ([], buffer)
  | none, _ => ([], none)

@[simp] theorem listen_nil (buffer : Option (List UInt8)) : listen buffer [] = ([], buffer) := by
  cases buffer <;> rfl

@[simp] theorem listen_ended (input : List Arrival) : listen none input = ([], none) := by
  cases input <;> rfl

theorem listen_append (buffer : Option (List UInt8)) (before after : List Arrival) :
    listen buffer (before ++ after) =
      ((listen buffer before).1 ++ (listen (listen buffer before).2 after).1,
        (listen (listen buffer before).2 after).2) := by
  induction before generalizing buffer with
  | nil => simp
  | cons arrival rest ih =>
      cases buffer with
      | none => simp
      | some buffer => cases arrival <;> simp [listen, ih]

namespace WayIn

def pending (way : WayIn) : List Event :=
  ((way.line.map Inward.published).getD []).filterMap Signal.event?

def buffer (way : WayIn) : Option (List UInt8) :=
  way.line.bind fun line => if line.reading then some line.buffer else none

def onDevice (way : WayIn) : Bool := way.line.any Inward.onDevice

structure Takes (way next : WayIn) (input : List Arrival) : Prop where
  events : next.received ++ next.pending =
    way.received ++ way.pending ++ (listen way.buffer input).1
  buffer : next.buffer = (listen way.buffer input).2
  onDevice : next.onDevice = way.onDevice
  isOpen : next.line.isSome = way.line.isSome
  received : way.received <+: next.received

structure Settled (way : WayIn) : Prop where
  read : way.onDevice = true → way.buffer ≠ none → way.arrivals = []
  handed : way.waiting ≠ [] → way.pending = []

variable {way next last : WayIn} {input later : List Arrival}

theorem Takes.same (events : next.received = way.received) (line : next.line = way.line) :
    way.Takes next [] := by
  constructor
  · simp [pending, events, line]
  · simp [WayIn.buffer, line]
  · simp [WayIn.onDevice, line]
  · rw [line]
  · simp only [events, List.prefix_refl]

theorem Takes.trans (first : way.Takes next input) (second : next.Takes last later) :
    way.Takes last (input ++ later) := by
  constructor
  · rw [second.events, first.events, first.buffer, listen_append, List.append_assoc]
  · rw [second.buffer, first.buffer, listen_append]
  · rw [second.onDevice, first.onDevice]
  · rw [second.isOpen, first.isOpen]
  · exact first.received.trans second.received

theorem Takes.deaf (ended : way.buffer = none) (takes : way.Takes next input) :
    way.Takes next later := by
  have events := takes.events
  have buffer := takes.buffer
  -- A reader that has ended makes nothing of any input, so one input is as good as another.
  simp only [ended, listen_ended] at events buffer
  constructor
  · simpa only [ended, listen_ended] using events
  · simpa only [ended, listen_ended] using buffer
  · exact takes.onDevice
  · exact takes.isOpen
  · exact takes.received

end WayIn

theorem deliver_left (waiting : List Nat) (signals : List Signal)
    (waits : (deliver waiting signals).1 ≠ []) : (deliver waiting signals).2.2 = [] := by
  induction signals generalizing waiting with
  | nil => cases waiting <;> rfl
  | cons signal rest ih =>
      cases waiting with
      | nil => exact absurd rfl waits
      | cons consumer others =>
          cases signal with
          -- A consumer that has got an event waits again, behind the others.
          | event event => exact ih (others ++ [consumer]) waits
          | ended => exact ih others waits

theorem takes_settleEvents (relay : Relay) : relay.wayIn.Takes relay.settleEvents.wayIn [] := by
  unfold settleEvents
  split
  next => exact WayIn.Takes.same rfl rfl
  next line opened =>
    have delivered := deliver_events relay.waiting line.published
    constructor
    · simp [WayIn.pending, wayIn, opened, ← delivered]
    · simp [WayIn.buffer, wayIn, opened]
    · simp [WayIn.onDevice, wayIn, opened]
    · simp [wayIn, opened]
    · exact List.prefix_append relay.received _

theorem settled_settleEvents {relay : Relay}
    (read : relay.wayIn.onDevice = true → relay.wayIn.buffer ≠ none →
      relay.wayIn.arrivals = []) : relay.settleEvents.wayIn.Settled := by
  unfold settleEvents
  split
  next closed =>
    refine ⟨read, fun _ => ?_⟩
    simp [WayIn.pending, wayIn, closed]
  next line opened =>
    constructor
    · simpa [WayIn.onDevice, WayIn.buffer, wayIn, opened] using read
    · intro waits
      simp [WayIn.pending, wayIn, deliver_left relay.waiting line.published waits]

/-! Reading. -/

theorem takes_readArrival {relay : Relay} {line : OpenLine} (opened : relay.line = some line)
    (reading : line.reading = true) (arrival : Arrival) :
    relay.wayIn.Takes (relay.readArrival line arrival).wayIn [arrival] := by
  have buffer : relay.wayIn.buffer = some line.buffer := by
    simp [WayIn.buffer, wayIn, opened, reading]
  have ends {arrival : Arrival} (final : listen (some line.buffer) [arrival] = ([], none))
      (records : List Journal.Record) : relay.wayIn.Takes (wayIn { relay with
        line := some { line with
          reading := false, published := line.published ++ [Signal.ended] }
        readerRecords := records }) [arrival] := by
    constructor
    · rw [buffer, final]
      simp [WayIn.pending, wayIn, opened, Signal.event?]
    · rw [buffer, final]
      simp [WayIn.buffer, wayIn]
    · simp [WayIn.onDevice, wayIn, opened]
    · simp [wayIn, opened]
    · exact List.prefix_refl relay.received
  cases arrival with
  | bytes data =>
      constructor
      · have found := filterMap_event (events (hearAll line.buffer (readsOf data)).1)
        rw [events] at found
        rw [buffer]
        simp only [WayIn.pending, wayIn, opened, readArrival, listen, events, Option.map_some,
          Option.getD_some, List.filterMap_append, found, List.append_nil, List.append_assoc]
      · rw [buffer]
        simp [WayIn.buffer, wayIn, readArrival, listen, reading]
      · simp [WayIn.onDevice, wayIn, opened, readArrival]
      · simp [wayIn, opened, readArrival]
      · exact List.prefix_refl relay.received
  | ending => exact ends rfl _
  | failure number => exact ends rfl _

theorem takes_readArrivals (relay : Relay) (input : List Arrival) :
    relay.wayIn.Takes (relay.readArrivals input).1.wayIn input ∧
      ((relay.readArrivals input).1.wayIn.buffer ≠ none → (relay.readArrivals input).2 = []) := by
  induction input generalizing relay with
  | nil => exact ⟨WayIn.Takes.same rfl rfl, fun _ => rfl⟩
  | cons arrival rest ih =>
      have still : relay.wayIn.Takes relay.wayIn [] := WayIn.Takes.same rfl rfl
      simp only [readArrivals]
      split
      next closed =>
        have ended : relay.wayIn.buffer = none := by simp [WayIn.buffer, wayIn, closed]
        exact ⟨still.deaf ended, fun reads => absurd ended reads⟩
      next line opened =>
        split
        next reading =>
          obtain ⟨others, left⟩ := ih (relay.readArrival line arrival)
          exact ⟨(takes_readArrival opened reading arrival).trans others, left⟩
        next done =>
          have ended : relay.wayIn.buffer = none := by
            simp [WayIn.buffer, wayIn, opened, done]
          exact ⟨still.deaf ended, fun reads => absurd ended reads⟩

theorem takes_readDevice {relay : Relay} (device : relay.wayIn.onDevice = true) :
    relay.wayIn.Takes relay.readDevice.wayIn relay.device.arrivals ∧
      relay.readDevice.wayIn.Settled := by
  unfold readDevice
  split
  next closed => simp [WayIn.onDevice, wayIn, closed] at device
  next line opened =>
    have onDevice : line.onDevice = true := by simpa [WayIn.onDevice, wayIn, opened] using device
    rw [if_pos onDevice]
    obtain ⟨takes, left⟩ := takes_readArrivals relay relay.device.arrivals
    generalize relay.readArrivals relay.device.arrivals = read at takes left
    obtain ⟨next, rest⟩ := read
    have moved : next.wayIn.Takes
        { next with device := { next.device with arrivals := rest } }.wayIn [] :=
      WayIn.Takes.same rfl rfl
    constructor
    · have read := (takes.trans moved).trans (takes_settleEvents _)
      simpa only [List.append_nil] using read
    · exact settled_settleEvents fun _ reads => left reads

def Act.stays : Act → Prop
  | .start _ | .stop => False
  | _ => True

def Act.input (onDevice : Bool) : Act → List Arrival
  | .undergo (.arrival arrival) => if onDevice then [arrival] else []
  | _ => []

theorem still_takes {relay next : Relay} (same : next.wayIn = relay.wayIn)
    (settled : relay.wayIn.Settled) :
    relay.wayIn.Takes next.wayIn [] ∧ next.wayIn.Settled := by
  rw [same]
  exact ⟨WayIn.Takes.same rfl rfl, settled⟩

theorem arrive_plain {relay : Relay} (plain : relay.wayIn.onDevice = false) {arrival : Arrival} :
    relay.arrive arrival = { relay with device := relay.device.arrive arrival } := by
  simp only [arrive, readDevice]
  split
  next => rfl
  next line opened =>
    have plain : line.onDevice = false := by simpa [WayIn.onDevice, wayIn, opened] using plain
    simp [plain]

theorem arrive_takes {relay : Relay} (settled : relay.wayIn.Settled) (arrival : Arrival) :
    relay.wayIn.Takes (relay.arrive arrival).wayIn
        (Act.input relay.wayIn.onDevice (.undergo (.arrival arrival))) ∧
      (relay.arrive arrival).wayIn.Settled := by
  let fed : Relay := { relay with device := relay.device.arrive arrival }
  have laid : relay.wayIn.Takes fed.wayIn [] := WayIn.Takes.same rfl rfl
  cases device : relay.wayIn.onDevice with
  | true =>
      obtain ⟨takes, last⟩ := @takes_readDevice fed device
      refine ⟨?_, last⟩
      cases buffer : relay.wayIn.buffer with
      | none => exact (laid.trans takes).deaf buffer
      | some bytes =>
          -- The reader had read all there was, so it finds what has just arrived and nothing else.
          have idle : relay.device.arrivals = [] := settled.read device (by simp [buffer])
          have alone : fed.device.arrivals = [arrival] := by
            simp [fed, Device.arrive, Device.join, idle]
          rw [alone] at takes
          exact laid.trans takes
  | false =>
      rw [arrive_plain device]
      refine ⟨laid, fun onDevice _ => ?_, settled.handed⟩
      exact absurd (device.symm.trans onDevice) Bool.false_ne_true

theorem perform_takes {relay : Relay} (settled : relay.wayIn.Settled) {act : Act}
    (stays : act.stays) :
    relay.wayIn.Takes (relay.perform act).wayIn (act.input relay.wayIn.onDevice) ∧
      (relay.perform act).wayIn.Settled := by
  cases act with
  | start tree => exact stays.elim
  | stop => exact stays.elim
  | forward raw => exact still_takes (wayIn_forward relay raw) settled
  | consume =>
      have asked : relay.wayIn.Takes (wayIn { relay with
          consumers := relay.consumers + 1
          waiting := if relay.isOpen then relay.waiting ++ [relay.consumers]
            else relay.waiting }) [] := WayIn.Takes.same rfl rfl
      exact ⟨asked.trans (takes_settleEvents _), settled_settleEvents settled.read⟩
  | undergo happening =>
      cases happening with
      | arrival arrival => exact arrive_takes settled arrival
      | lateArrival arrival => exact ⟨WayIn.Takes.same rfl rfl, settled.read, settled.handed⟩
      | writeFailure number => exact still_takes rfl settled
      | hold => exact still_takes rfl settled
      | release => exact still_takes (wayIn_release relay) settled

theorem run_takes {relay : Relay} (settled : relay.wayIn.Settled) {acts : List Act}
    (stays : ∀ act ∈ acts, act.stays) :
    relay.wayIn.Takes (relay.run acts).wayIn (acts.flatMap (Act.input relay.wayIn.onDevice)) ∧
      (relay.run acts).wayIn.Settled := by
  induction acts generalizing relay with
  | nil => exact ⟨WayIn.Takes.same rfl rfl, settled⟩
  | cons act rest ih =>
      obtain ⟨here, later⟩ := List.forall_mem_cons.mp stays
      obtain ⟨first, between⟩ := perform_takes settled here
      obtain ⟨others, last⟩ := ih between later
      rw [first.onDevice] at others
      exact ⟨first.trans others, last⟩

def offered (relay : Relay) (tree : Filesystem) : List Arrival :=
  if relay.path = relay.device.name then relay.device.arrivals
  else (openPlain tree relay.path).toOption.getD []

def opened (relay : Relay) : WayIn :=
  { relay.wayIn with line := some ⟨relay.path = relay.device.name, [], true, []⟩ }

theorem start_takes {relay : Relay} {tree : Filesystem} (started : (relay.start tree).2.2 = none) :
    relay.opened.Takes (relay.start tree).1.wayIn (relay.offered tree) ∧
      (relay.start tree).1.wayIn.Settled := by
  by_cases device : relay.path = relay.device.name
  · obtain ⟨line, calls, found⟩ := open_eq relay.device relay.baudrate
    have shape : relay.opened = wayIn { relay with
        device := (relay.device.open relay.baudrate).1, line := some {} } := by
      rw [found]
      simp [Relay.opened, wayIn, device]
    have offered : relay.offered tree = (relay.device.open relay.baudrate).1.arrivals := by
      rw [found, Relay.offered, if_pos device]
    rw [start_eq device started, shape, offered]
    exact takes_readDevice rfl
  · simp only [start, if_neg device, offered] at started ⊢
    cases found : openPlain tree relay.path with
    | error error => simp [found] at started
    | ok input =>
        obtain ⟨takes, _⟩ := takes_readArrivals relay.openFile input
        have shape : relay.opened = relay.openFile.wayIn := by
          simp [Relay.opened, openFile, wayIn, device]
        rw [shape]
        have read := takes.trans (takes_settleEvents _)
        rw [List.append_nil] at read
        refine ⟨read, settled_settleEvents fun onDevice _ => ?_⟩
        rw [takes.onDevice] at onDevice
        exact absurd onDevice Bool.false_ne_true

/-! The stop. -/

theorem level_heardRecord {heard : Heard} {record : Journal.Record}
    (noted : heardRecord? heard = some record) : record.level = Journal.debug := by
  cases heard with
  | event event => exact nomatch noted
  | ignored line =>
      cases noted
      rfl
  | discarded bytes =>
      cases noted
      rfl

theorem level_lateRecords (line : OpenLine) (input : List Arrival) :
    ∀ note ∈ (lateRecords line input).1, note.level = Journal.debug := by
  intro note member
  cases input with
  | nil => exact nomatch member
  | cons arrival rest =>
      cases arrival with
      | bytes data =>
          obtain ⟨heard, _, noted⟩ := List.mem_filterMap.mp member
          exact level_heardRecord noted
      | ending => exact nomatch member
      | failure number => exact nomatch member

/-- What the reader still notes while the relay is being stopped, and what it leaves on the device. -/
def heardLate (relay : Relay) : List Journal.Record × List Arrival :=
  let arrivals := relay.device.late.foldl Device.join relay.device.arrivals
  match relay.line with
  | none => ([], arrivals)
  | some line =>
      if line.reading && line.onDevice then lateRecords line arrivals else ([], arrivals)

theorem level_heardLate (relay : Relay) :
    ∀ note ∈ relay.heardLate.1, note.level = Journal.debug := by
  simp only [heardLate]
  split
  next => simp
  next line opened =>
    split
    · exact level_lateRecords line _
    · simp

theorem wayIn_stop (relay : Relay) : relay.stop.1.wayIn = { relay.wayIn with
    arrivals := relay.heardLate.2, late := [], waiting := [], line := none
    records := relay.readerRecords ++ relay.heardLate.1 } := by
  cases opened : relay.line with
  | none => simp [stop, wayIn, opened, heardLate]
  | some line =>
      let closed : Relay := { relay with
        line := none
        device := { relay.device with arrivals := relay.heardLate.2, late := [], held := false }
        waiting := []
        readerRecords := relay.readerRecords ++ relay.heardLate.1 }
      have written := wayIn_writeFrames closed line.onDevice line.inHand.toList
      have noted (stopped : Relay) : wayIn { stopped with
          device := if line.onDevice then stopped.device.note [.closed] else stopped.device } =
          stopped.wayIn := by
        cases line.onDevice <;> rfl
      have shape : relay.stop.1.wayIn =
          (closed.writeFrames line.onDevice line.inHand.toList).wayIn := by
        simp only [stop, opened, closed, heardLate]
        exact noted _
      rw [shape, written]
      rfl

theorem path_stop (relay : Relay) : relay.stop.1.path = relay.path := by
  unfold stop
  cases relay.line with
  | none => rfl
  | some line => exact path_writeFrames ..

structure WayIn.Shut (way : WayIn) : Prop where
  line : way.line = none
  waiting : way.waiting = []

structure WayIn.Quiet (way next : WayIn) : Prop where
  shut : next.Shut
  received : next.received = way.received
  records : next.records = way.records

theorem perform_quiet {relay : Relay} (shut : relay.wayIn.Shut) {act : Act}
    (closed : ∀ tree, act ≠ .start tree) : relay.wayIn.Quiet (relay.perform act).wayIn := by
  have line : relay.line = none := by simpa [wayIn] using shut.line
  have same {next : Relay} (same : next.wayIn = relay.wayIn) : relay.wayIn.Quiet next.wayIn := by
    rw [same]
    exact ⟨shut, rfl, rfl⟩
  cases act with
  | start tree => exact absurd rfl (closed tree)
  | stop =>
      have shape : relay.perform .stop = { relay with
          waiting := []
          device := { relay.device with
            arrivals := relay.device.late.foldl Device.join relay.device.arrivals
            late := [], held := false } } := by
        simp [perform, stop, line]
      rw [shape]
      exact ⟨⟨shut.line, rfl⟩, rfl, rfl⟩
  | forward raw => exact same (wayIn_forward relay raw)
  | consume =>
      have shape : relay.perform .consume =
          { relay with consumers := relay.consumers + 1 } := by
        simp [perform, consume, settleEvents, isOpen, line]
      rw [shape]
      exact ⟨⟨shut.line, shut.waiting⟩, rfl, rfl⟩
  | undergo happening =>
      cases happening with
      | arrival arrival =>
          have shape : relay.perform (.undergo (.arrival arrival)) =
              { relay with device := relay.device.arrive arrival } := by
            simp [perform, undergo, arrive, readDevice, line]
          rw [shape]
          exact ⟨⟨shut.line, shut.waiting⟩, rfl, rfl⟩
      | lateArrival arrival => exact ⟨⟨shut.line, shut.waiting⟩, rfl, rfl⟩
      | writeFailure number => exact same rfl
      | hold => exact same rfl
      | release => exact same (wayIn_release relay)

theorem run_quiet {relay : Relay} (shut : relay.wayIn.Shut) {acts : List Act}
    (closed : ∀ act ∈ acts, ∀ tree, act ≠ .start tree) :
    relay.wayIn.Quiet (relay.run acts).wayIn := by
  induction acts generalizing relay with
  | nil => exact ⟨shut, rfl, rfl⟩
  | cons act rest ih =>
      obtain ⟨here, later⟩ := List.forall_mem_cons.mp closed
      have first := perform_quiet shut here
      have others := ih first.shut later
      exact ⟨others.shut, others.received.trans first.received,
        others.records.trans first.records⟩

def input (relay : Relay) (tree : Filesystem) (acts : List Act) : List Arrival :=
  relay.offered tree ++ acts.flatMap (Act.input (relay.path = relay.device.name))

theorem isOpen_run {relay : Relay} {tree : Filesystem} (started : (relay.start tree).2.2 = none)
    {acts : List Act} (stays : ∀ act ∈ acts, act.stays) :
    ((relay.start tree).1.run acts).isOpen = true := by
  obtain ⟨begins, settled⟩ := start_takes started
  obtain ⟨goes, _⟩ := run_takes settled stays
  have kept := goes.isOpen.trans begins.isOpen
  rwa [wayIn, Option.isSome_map] at kept

/-- What the reader of a started relay publishes is what it hears in its input, whatever else is done
to the relay. The consumers have received a beginning of it, in order and each event once, and all of
it if one of them waits. A stop ends every consumer; nobody receives anything after it, and no read
that fails is reported. -/
theorem run_in_order {relay : Relay} {tree : Filesystem}
    (started : (relay.start tree).2.2 = none) {acts : List Act} (stays : ∀ act ∈ acts, act.stays) :
    let now := (relay.start tree).1.run acts
    let heard := (listen (some []) (relay.input tree acts)).1
    now.published = relay.received ++ heard ∧
      (∃ received, now.received = relay.received ++ received ∧ received <+: heard) ∧
      (now.waiting ≠ [] → now.received = relay.received ++ heard) ∧
      (∃ notes, now.stop.1.readerRecords = now.readerRecords ++ notes ∧
        ∀ note ∈ notes, note.level = Journal.debug) ∧
      ∀ later, (∀ act ∈ later, ∀ tree, act ≠ .start tree) →
        (now.stop.1.run later).received = now.received ∧
        (now.stop.1.run later).readerRecords = now.stop.1.readerRecords ∧
        ∀ consumer, (now.stop.1.run later).consumerEnded consumer = true := by
  intro now heard
  obtain ⟨begins, settled⟩ := start_takes started
  obtain ⟨goes, settled⟩ := run_takes settled stays
  rw [begins.onDevice] at goes
  have takes : relay.opened.Takes now.wayIn (relay.input tree acts) := begins.trans goes
  have published : now.received ++ now.wayIn.pending = relay.received ++ heard := by
    have events := takes.events
    rwa [show relay.opened.pending = [] from rfl, List.append_nil] at events
  have stopped := wayIn_stop now
  have shut : now.stop.1.wayIn.Shut := by
    rw [stopped]
    exact ⟨rfl, rfl⟩
  refine ⟨?all, ?first, ?whole,
    ⟨now.heardLate.1, congrArg WayIn.records stopped, level_heardLate now⟩, ?after⟩
  case all =>
    rw [← published, Relay.published, WayIn.pending, wayIn, Option.map_map]
    rfl
  case first =>
    obtain ⟨received, grown⟩ := takes.received
    refine ⟨received, grown.symm, now.wayIn.pending, ?_⟩
    have same : relay.received ++ received = now.received := grown
    rw [← same, List.append_assoc] at published
    exact List.append_cancel_left published
  case whole =>
    intro waits
    rw [settled.handed waits, List.append_nil] at published
    exact published
  case after =>
    intro later closed
    have kept := run_quiet shut closed
    refine ⟨kept.received.trans ?_, kept.records, fun consumer => ?_⟩
    · rw [stopped]
      rfl
    · have nobody : (now.stop.1.run later).waiting = [] := kept.shut.waiting
      rw [consumerEnded, nobody]
      rfl

end SteeringChannel.Relay
