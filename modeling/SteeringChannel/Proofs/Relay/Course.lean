import SteeringChannel.Proofs.Relay.Delivery
import SteeringChannel.Proofs.Relay.Interleaving

/-!
The acts of a relay as turns of its reader and its consumers. Each act is one order of turns, taken
until nothing more happens by itself; so what holds in every order holds of every run.
-/

namespace SteeringChannel.Relay

def outset (relay : Relay) (tree : Filesystem) : Midway where
  path := relay.path
  input := relay.offered tree
  waiting := relay.waiting
  received := relay.received
  records := relay.readerRecords

namespace Midway

variable {now next last : Midway} {relay : Relay}

structure Shows (now : Midway) (relay : Relay) : Prop where
  path : now.path = relay.path
  received : now.received = relay.wayIn.received
  waiting : now.waiting = relay.wayIn.waiting
  records : now.records = relay.wayIn.records
  line : relay.wayIn.line.map (fun line => (line.buffer, line.reading, line.published)) =
    now.queue.map fun queue => (now.buffer, now.reading, queue)
  stopping : now.stopping = !relay.wayIn.line.isSome
  cut : now.cut = []
  busy : now.busy = []

theorem records_cons (heard : Heard) (rest : List Heard) :
    (heard :: rest).filterMap heardRecord? =
      (heardRecord? heard).toList ++ rest.filterMap heardRecord? := by
  cases note : heardRecord? heard <;> simp [note]

theorem reaches_dealt (now : Midway) (cut : List Heard) (queue : List Signal) :
    { now with cut := cut, queue := some queue }.Reaches { now with
      cut := []
      queue := some (queue ++ (events cut).map Signal.event)
      published := now.published ++ events cut
      records := now.records ++ cut.filterMap heardRecord? } := by
  induction cut generalizing now queue with
  | nil =>
      simp only [events, List.filterMap_nil, List.map_nil, List.append_nil]
      exact Reaches.refl _
  | cons heard rest ih =>
      have quiet (silent : heard.event? = none)
          (dealt : { now with cut := heard :: rest, queue := some queue }.deal =
            some { now with
              cut := rest, queue := some queue
              records := now.records ++ (heardRecord? heard).toList }) :
          { now with cut := heard :: rest, queue := some queue }.Reaches { now with
            cut := []
            queue := some (queue ++ (events (heard :: rest)).map Signal.event)
            published := now.published ++ events (heard :: rest)
            records := now.records ++ (heard :: rest).filterMap heardRecord? } := by
        have later :=
          ih { now with records := now.records ++ (heardRecord? heard).toList } queue
        rw [events, List.filterMap_cons_none silent, records_cons, ← List.append_assoc]
        exact (Reaches.one .deal dealt).trans later
      cases heard with
      | event event =>
          have dealt : { now with cut := .event event :: rest, queue := some queue }.turn .deal =
              some { now with
                cut := rest, queue := some (queue ++ [.event event])
                published := now.published ++ [event] } := rfl
          have later := ih { now with published := now.published ++ [event] }
            (queue ++ [.event event])
          simpa [events, List.filterMap_cons, Heard.event?, heardRecord?]
            using (Reaches.one .deal dealt).trans later
      | ignored line => exact quiet rfl rfl
      | discarded bytes => exact quiet rfl rfl

theorem chunks_nil (fuel : Nat) : chunks fuel [] = [] := by
  cases fuel <;> rfl

theorem reaches_read (now : Midway) (rest : List Arrival) {fuel : Nat} {data : List UInt8}
    (enough : data.length ≤ fuel) (queue : List Signal) :
    { now with
      input := .bytes data :: rest, cut := [], reading := true, queue := some queue }.Reaches
    { now with
      input := rest, cut := [], reading := true
      buffer := (hearAll now.buffer (chunks fuel data)).2
      queue := some (queue ++
        (events (hearAll now.buffer (chunks fuel data)).1).map Signal.event)
      reads := now.reads ++ chunks fuel data
      published := now.published ++ events (hearAll now.buffer (chunks fuel data)).1
      records := now.records ++
        (hearAll now.buffer (chunks fuel data)).1.filterMap heardRecord? } := by
  induction fuel generalizing now data queue with
  | zero =>
      have none : data = [] := List.length_eq_zero_iff.mp (Nat.le_zero.mp enough)
      subst none
      simp only [chunks, hearAll, events, List.filterMap_nil, List.map_nil, List.append_nil]
      exact Reaches.one .read rfl
  | succ fuel ih =>
      cases data with
      | nil =>
          simp only [chunks, hearAll, events, List.filterMap_nil, List.map_nil, List.append_nil]
          exact Reaches.one .read rfl
      | cons byte others =>
          let data := byte :: others
          let heard := hear now.buffer (data.take readLimit)
          let left := if data.length ≤ readLimit then rest
            else .bytes (data.drop readLimit) :: rest
          have read : { now with
              input := .bytes data :: rest, cut := [], reading := true
              queue := some queue }.turn .read =
            some { now with
              input := left, buffer := heard.2, cut := heard.1, reading := true
              queue := some queue, reads := now.reads ++ [data.take readLimit] } := rfl
          have dealt := reaches_dealt { now with
            input := left, buffer := heard.2, reading := true
            reads := now.reads ++ [data.take readLimit] } heard.1 queue
          have first := (Reaches.one .read read).trans dealt
          by_cases short : data.length ≤ readLimit
          · have shape : chunks (fuel + 1) data = [data.take readLimit] := by
              change data.take readLimit :: chunks fuel (data.drop readLimit) = _
              rw [List.drop_eq_nil_of_le short, chunks_nil]
            simp only [left, if_pos short] at first
            rw [shape]
            simpa only [hearAll, List.append_nil] using first
          · have fewer : (data.drop readLimit).length ≤ fuel := by
              rw [List.length_drop]
              simp only [data, List.length_cons, readLimit] at enough ⊢
              omega
            simp only [left, if_neg short] at first
            have later := ih { now with
              buffer := heard.2
              reads := now.reads ++ [data.take readLimit]
              published := now.published ++ events heard.1
              records := now.records ++ heard.1.filterMap heardRecord? } fewer
              (queue ++ (events heard.1).map Signal.event)
            have shape : chunks (fuel + 1) data =
              data.take readLimit :: chunks fuel (data.drop readLimit) := rfl
            rw [shape]
            simpa only [hearAll, events_append, List.map_append, List.filterMap_append,
              List.append_assoc, List.singleton_append] using first.trans later

theorem Shows.opened (shows : now.Shows relay) {line : OpenLine} (opened : relay.line = some line) :
    now.queue = some line.published ∧ now.buffer = line.buffer ∧ now.reading = line.reading ∧
      now.stopping = false := by
  have same := shows.line
  have stopping := shows.stopping
  simp only [wayIn, opened, Option.map_some, Option.isSome_some, Bool.not_true] at same stopping
  obtain ⟨queue, found, fields⟩ := Option.map_eq_some_iff.mp same.symm
  simp only [Prod.mk.injEq] at fields
  obtain ⟨buffer, reading, rfl⟩ := fields
  exact ⟨found, buffer, reading, stopping⟩

theorem shows_readArrival (shows : now.Shows relay) {line : OpenLine}
    (opened : relay.line = some line) (reading : line.reading = true) {arrival : Arrival}
    {rest : List Arrival} (input : now.input = arrival :: rest) :
    ∃ next, now.Reaches next ∧ next.Shows (relay.readArrival line arrival) ∧ next.input = rest := by
  obtain ⟨queue, buffer, reads, stopping⟩ := shows.opened opened
  rw [reading] at reads
  have ends (final : Arrival) (silent : ∀ data, final ≠ .bytes data)
      (input : now.input = final :: rest) :
      ∃ next, now.Reaches next ∧ next.input = rest ∧ next.Shows { relay with
        line := some { line with reading := false, published := line.published ++ [.ended] }
        readerRecords := relay.readerRecords ++ (relay.arrivalRecord? final).toList } := by
    have taken : now.turn .read = some ({ now with
        input := rest, reading := false
        records := now.records ++ (now.note final).toList }.put .ended) := by
      rw [Midway.turn, if_pos ⟨reads, shows.cut⟩, Midway.read, input]
      cases final with
      | bytes data => exact absurd rfl (silent data)
      | ending => rfl
      | failure number => rfl
    have noted : now.note final = relay.arrivalRecord? final := by
      cases final with
      | bytes data => rfl
      | ending => simp only [note, arrivalRecord?, shows.path]
      | failure number => simp [note, arrivalRecord?, stopping, shows.path]
    refine ⟨_, Reaches.one .read taken, rfl, ?_⟩
    constructor
    · exact shows.path
    · exact shows.received
    · exact shows.waiting
    · simp only [put, noted, shows.records]
      rfl
    · simp [put, wayIn, queue, buffer]
    · exact stopping
    · exact shows.cut
    · exact shows.busy
  cases arrival with
  | bytes data =>
      have same : now = { now with
          input := .bytes data :: rest, cut := [], reading := true
          queue := some line.published } := by
        rw [← input, ← queue, ← shows.cut, ← reads]
      have read := reaches_read now rest (Nat.le_refl data.length) line.published
      rw [← same] at read
      refine ⟨_, read, ?_, rfl⟩
      constructor
      · exact shows.path
      · exact shows.received
      · exact shows.waiting
      · simp only [shows.records, readArrival, wayIn, readsOf, buffer]
      · simp [wayIn, readArrival, readsOf, buffer, reading, events]
      · exact stopping
      · rfl
      · exact shows.busy
  | ending =>
      obtain ⟨next, reached, left, shows⟩ := ends .ending (by simp) input
      exact ⟨next, reached, shows, left⟩
  | failure number =>
      obtain ⟨next, reached, left, shows⟩ := ends (.failure number) (by simp) input
      exact ⟨next, reached, shows, left⟩

theorem shows_readArrivals (shows : now.Shows relay) {line : OpenLine}
    (opened : relay.line = some line) {input : List Arrival} (given : now.input = input) :
    ∃ next after, now.Reaches next ∧ next.Shows (relay.readArrivals input).1 ∧
      (relay.readArrivals input).1.line = some after ∧
      next.input = (relay.readArrivals input).2 ∧
      (next.reading = true → next.input = []) := by
  induction input generalizing now relay line with
  | nil => exact ⟨now, line, Reaches.refl now, shows, opened, given, fun _ => given⟩
  | cons arrival rest ih =>
      simp only [readArrivals, opened]
      split
      next reading =>
        obtain ⟨between, first, shows, left⟩ := shows_readArrival shows opened reading given
        have still : ∃ line', (relay.readArrival line arrival).line = some line' := by
          cases arrival <;> exact ⟨_, rfl⟩
        obtain ⟨line', opened⟩ := still
        obtain ⟨next, after, second, shows, opened, left, idle⟩ := ih shows opened left
        exact ⟨next, after, first.trans second, shows, opened, left, idle⟩
      next done =>
        obtain ⟨_, _, reads, _⟩ := shows.opened opened
        exact ⟨now, line, Reaches.refl now, shows, opened, given,
          fun reading => absurd (reads ▸ reading) done⟩

theorem reaches_delivered (now : Midway) (waiting : List Nat) (signals : List Signal) :
    { now with waiting := waiting, busy := [], queue := some signals }.Reaches { now with
      waiting := (deliver waiting signals).1, busy := []
      queue := some (deliver waiting signals).2.2
      received := now.received ++ (deliver waiting signals).2.1 } := by
  induction signals generalizing now waiting with
  | nil =>
      cases waiting <;> simp only [deliver, List.append_nil] <;> exact Reaches.refl _
  | cons signal rest ih =>
      cases waiting with
      | nil =>
          simp only [deliver, List.append_nil]
          exact Reaches.refl _
      | cons consumer others =>
          cases signal with
          | event event =>
              have taken : { now with
                  waiting := consumer :: others, busy := []
                  queue := some (.event event :: rest) }.turn (.take consumer) =
                some { now with
                  waiting := others, busy := [consumer], queue := some rest
                  received := now.received ++ [event] } := by
                simp [Midway.turn, take]
              have again : { now with
                  waiting := others, busy := [consumer], queue := some rest
                  received := now.received ++ [event] }.turn (.again consumer) =
                some { now with
                  waiting := others ++ [consumer], busy := [], queue := some rest
                  received := now.received ++ [event] } := by
                simp [Midway.turn, wait]
              have later := ih { now with received := now.received ++ [event] }
                (others ++ [consumer])
              simp only [deliver]
              rw [List.append_cons now.received event]
              exact (Reaches.one _ taken).trans ((Reaches.one _ again).trans later)
          | ended =>
              have taken : { now with
                  waiting := consumer :: others, busy := []
                  queue := some (.ended :: rest) }.turn (.take consumer) =
                some { now with waiting := others, busy := [], queue := some rest } := by
                simp [Midway.turn, take]
              exact (Reaches.one _ taken).trans (ih now others)

theorem shows_settleEvents (shows : now.Shows relay) :
    ∃ next, now.Reaches next ∧ next.Shows relay.settleEvents ∧ next.input = now.input ∧
      next.reading = now.reading ∧ (next.waiting = [] ∨ next.queue.getD [] = []) := by
  unfold settleEvents
  split
  next closed =>
    have same := shows.line
    have shut : now.queue = none := by simpa [wayIn, closed] using same.symm
    exact ⟨now, Reaches.refl now, shows, rfl, rfl, Or.inr (by simp [shut])⟩
  next line opened =>
    obtain ⟨queue, buffer, reading, stopping⟩ := shows.opened opened
    have delivered := reaches_delivered now relay.waiting line.published
    have same : now = { now with
        waiting := relay.waiting, busy := [], queue := some line.published } := by
      rw [← queue, ← shows.busy, show relay.waiting = now.waiting from shows.waiting.symm]
    rw [← same] at delivered
    refine ⟨_, delivered, ?_, rfl, rfl, ?_⟩
    · constructor
      · exact shows.path
      · simp only [wayIn, shows.received]
      · rfl
      · exact shows.records
      · simp [wayIn, buffer, reading]
      · exact stopping
      · exact shows.cut
      · rfl
    · by_cases nobody : (deliver relay.waiting line.published).1 = []
      · exact Or.inl nobody
      · exact Or.inr (deliver_left relay.waiting line.published nobody)

structure Rests (now : Midway) (relay : Relay) : Prop where
  shows : now.Shows relay
  input : relay.wayIn.onDevice = true → now.input = relay.wayIn.arrivals
  settled : now.Settled

theorem Shows.same (shows : now.Shows relay) {other : Relay} (path : other.path = relay.path)
    (way : { other.wayIn with
      arrivals := relay.wayIn.arrivals, late := relay.wayIn.late
      consumers := relay.wayIn.consumers } = relay.wayIn) : now.Shows other := by
  have waiting : other.waiting = relay.wayIn.waiting := congrArg WayIn.waiting way
  have received : other.received = relay.wayIn.received := congrArg WayIn.received way
  have records : other.readerRecords = relay.wayIn.records := congrArg WayIn.records way
  have line := congrArg WayIn.line way
  change other.wayIn.line = relay.wayIn.line at line
  constructor
  · rw [path, shows.path]
  · rw [shows.received, ← received, wayIn]
  · rw [shows.waiting, ← waiting, wayIn]
  · rw [shows.records, ← records, wayIn]
  · rw [line, shows.line]
  · rw [line, shows.stopping]
  · exact shows.cut
  · exact shows.busy

theorem rests_settleEvents (shows : now.Shows relay) {line : OpenLine}
    (opened : relay.line = some line) (idle : now.reading = true → now.input = [])
    (input : relay.wayIn.onDevice = true → now.input = relay.device.arrivals) :
    ∃ next, now.Reaches next ∧ next.Rests relay.settleEvents := by
  obtain ⟨next, reached, settles, left, reading, handed⟩ := shows_settleEvents shows
  have shape : ∃ published, relay.settleEvents.line = some { line with published := published } := by
    simp [settleEvents, opened]
  obtain ⟨published, shape⟩ := shape
  obtain ⟨_, _, _, stopping⟩ := settles.opened shape
  refine ⟨next, reached, settles, ?_, settled_iff.mpr ⟨settles.cut, settles.busy, ?_, handed⟩⟩
  · intro device
    rw [left, input (by simpa [wayIn, WayIn.onDevice, opened, shape] using device)]
    simp [settleEvents, opened, wayIn]
  · intro reads
    exact ⟨by rw [left, idle (reading ▸ reads)], stopping⟩

theorem rests_readDevice (shows : now.Shows relay) (device : relay.wayIn.onDevice = true)
    (input : now.input = relay.device.arrivals) :
    ∃ next, now.Reaches next ∧ next.Rests relay.readDevice := by
  unfold readDevice
  split
  next closed => simp [WayIn.onDevice, wayIn, closed] at device
  next line opened =>
    have onDevice : line.onDevice = true := by simpa [WayIn.onDevice, wayIn, opened] using device
    rw [if_pos onDevice]
    obtain ⟨between, after, reached, read, opened, left, idle⟩ :=
      shows_readArrivals shows opened input
    generalize relay.readArrivals relay.device.arrivals = result at read left opened
    obtain ⟨reader, rest⟩ := result
    have laid : between.Shows
        { reader with device := { reader.device with arrivals := rest } } := read.same rfl rfl
    obtain ⟨next, settles, rests⟩ := rests_settleEvents laid opened idle fun _ => left
    exact ⟨next, reached.trans settles, rests⟩

theorem rests_arrive (rests : now.Rests relay) (arrival : Arrival) :
    ∃ next, now.Reaches next ∧ next.Rests (relay.arrive arrival) := by
  let fed : Relay := { relay with device := relay.device.arrive arrival }
  have laid : now.Shows fed := rests.shows.same rfl rfl
  cases device : relay.wayIn.onDevice with
  | true =>
      have arrived : now.turn (.arrive arrival) =
          some { now with input := Device.join now.input arrival } := rfl
      have shows : { now with input := Device.join now.input arrival }.Shows fed := by
        obtain ⟨path, received, waiting, records, line, stopping, cut, busy⟩ := laid
        exact ⟨path, received, waiting, records, line, stopping, cut, busy⟩
      have input : Device.join now.input arrival = fed.device.arrivals := by
        rw [rests.input device]
        rfl
      obtain ⟨next, reached, rests⟩ := rests_readDevice shows device input
      exact ⟨next, (Reaches.one _ arrived).trans reached, rests⟩
  | false =>
      rw [arrive_plain device]
      refine ⟨now, Reaches.refl now, laid, fun onDevice => ?_, rests.settled⟩
      exact absurd (device.symm.trans onDevice) Bool.false_ne_true

theorem rests_consume (rests : now.Rests relay) :
    ∃ next, now.Reaches next ∧ next.Rests relay.consume := by
  cases opened : relay.line with
  | none =>
      have shape : relay.consume = { relay with consumers := relay.consumers + 1 } := by
        simp [consume, settleEvents, isOpen, opened]
      rw [shape]
      exact ⟨now, Reaches.refl now, rests.shows.same rfl rfl, rests.input, rests.settled⟩
  | some line =>
      obtain ⟨queue, _, _, _⟩ := rests.shows.opened opened
      obtain ⟨dealt, free, idle, _⟩ := settled_iff.mp rests.settled
      let asked : Relay := { relay with
        consumers := relay.consumers + 1
        waiting := if relay.isOpen then relay.waiting ++ [relay.consumers] else relay.waiting }
      have shows : (now.wait relay.consumers).Shows asked := by
        obtain ⟨path, received, waiting, records, line, stopping, cut, busy⟩ := rests.shows
        refine ⟨path, received, ?_, records, line, stopping, cut, busy⟩
        simp [wait, queue, waiting, asked, isOpen, wayIn, opened]
      obtain ⟨next, reached, rests⟩ :=
        rests_settleEvents shows opened (fun reads => (idle reads).1) rests.input
      exact ⟨next, (Reaches.one (.join relay.consumers) rfl).trans reached, rests⟩

theorem rests_perform (rests : now.Rests relay) {act : Act} (stays : act.stays) :
    ∃ next, now.Reaches next ∧ next.Rests (relay.perform act) := by
  have aside {other : Relay} (way : other.wayIn = relay.wayIn) (path : other.path = relay.path) :
      ∃ next, now.Reaches next ∧ next.Rests other := by
    refine ⟨now, Reaches.refl now, rests.shows.same path (by rw [way]), ?_, rests.settled⟩
    rw [way]
    exact rests.input
  cases act with
  | start tree => exact stays.elim
  | stop => exact stays.elim
  | forward raw => exact aside (wayIn_forward relay raw) (path_forward relay raw)
  | consume => exact rests_consume rests
  | undergo happening =>
      cases happening with
      | arrival arrival => exact rests_arrive rests arrival
      | lateArrival arrival =>
          exact ⟨now, Reaches.refl now, rests.shows.same rfl rfl, rests.input, rests.settled⟩
      | writeFailure number => exact aside rfl rfl
      | hold => exact aside rfl rfl
      | release => exact aside (wayIn_release relay) (path_drain _)

theorem rests_run (rests : now.Rests relay) {acts : List Act} (stays : ∀ act ∈ acts, act.stays) :
    ∃ next, now.Reaches next ∧ next.Rests (relay.run acts) := by
  induction acts generalizing now relay with
  | nil => exact ⟨now, Reaches.refl now, rests⟩
  | cons act rest ih =>
      obtain ⟨here, later⟩ := List.forall_mem_cons.mp stays
      obtain ⟨between, first, rests⟩ := rests_perform rests here
      obtain ⟨next, second, rests⟩ := ih rests later
      exact ⟨next, first.trans second, rests⟩

/-! The start and the stop. -/

theorem sound_outset (relay : Relay) (tree : Filesystem) :
    (relay.outset tree).Sound relay.received := by
  constructor
  · intro queue opened
    cases opened
    simp [outset]
  · simp only [outset, List.append_nil, List.prefix_refl]
  · exact fun _ => rfl
  · exact List.nil_prefix
  · rfl

theorem rests_start {tree : Filesystem} (started : (relay.start tree).2.2 = none) :
    ∃ next, (relay.outset tree).Reaches next ∧ next.Rests (relay.start tree).1 := by
  by_cases device : relay.path = relay.device.name
  · obtain ⟨line, calls, found⟩ := open_eq relay.device relay.baudrate
    rw [start_eq device started, found]
    refine rests_readDevice ?_ rfl ?_
    · exact ⟨rfl, rfl, rfl, rfl, rfl, rfl, rfl, rfl⟩
    · simp [outset, offered, device]
  · simp only [start, if_neg device] at started ⊢
    cases found : openPlain tree relay.path with
    | error error => simp [found] at started
    | ok input =>
        have shows : (relay.outset tree).Shows relay.openFile :=
          ⟨rfl, rfl, rfl, rfl, rfl, rfl, rfl, rfl⟩
        have given : (relay.outset tree).input = input := by
          simp [outset, offered, device, found, Except.toOption]
        obtain ⟨between, after, reached, read, opened, _, idle⟩ :=
          shows_readArrivals shows rfl given
        have plain := (takes_readArrivals relay.openFile input).1.onDevice
        obtain ⟨next, settles, rests⟩ := rests_settleEvents read opened idle
          fun onDevice => absurd (plain.symm.trans onDevice) Bool.false_ne_true
        exact ⟨next, reached.trans settles, rests⟩

theorem reaches_arrived (now : Midway) (arrivals : List Arrival) :
    now.Reaches { now with input := arrivals.foldl Device.join now.input } := by
  induction arrivals generalizing now with
  | nil => exact Reaches.refl now
  | cons arrival rest ih =>
      exact (Reaches.one (.arrive arrival) rfl).trans
        (ih { now with input := Device.join now.input arrival })

theorem reaches_dealt_late (now : Midway) (cut : List Heard) : ∃ reading,
    { now with queue := none, cut := cut }.Reaches { now with
      queue := none, cut := [], reading := reading
      records := now.records ++
        (cut.takeWhile fun heard : Heard => heard.event?.isNone).filterMap heardRecord? } := by
  induction cut generalizing now with
  | nil =>
      simp only [List.takeWhile_nil, List.filterMap_nil, List.append_nil]
      exact ⟨now.reading, Reaches.refl _⟩
  | cons heard rest ih =>
      have quiet (silent : heard.event? = none)
          (dealt : { now with queue := none, cut := heard :: rest }.deal = some { now with
            queue := none, cut := rest
            records := now.records ++ (heardRecord? heard).toList }) : ∃ reading,
          { now with queue := none, cut := heard :: rest }.Reaches { now with
            queue := none, cut := [], reading := reading
            records := now.records ++ ((heard :: rest).takeWhile fun heard : Heard =>
              heard.event?.isNone).filterMap heardRecord? } := by
        obtain ⟨reading, later⟩ :=
          ih { now with records := now.records ++ (heardRecord? heard).toList }
        refine ⟨reading, ?_⟩
        rw [List.takeWhile_cons_of_pos (by simp [silent]), records_cons, ← List.append_assoc]
        exact (Reaches.one .deal dealt).trans later
      cases heard with
      | event event =>
          refine ⟨false, Reaches.one .deal ?_⟩
          simp [Midway.turn, deal, Heard.event?]
      | ignored line => exact quiet rfl rfl
      | discarded bytes => exact quiet rfl rfl

theorem hear_nil {buffer : List UInt8} (kept : Kept buffer) : hear buffer [] = ([], buffer) := by
  have whole := splitLines_unbroken kept.1
  rw [hear_eq (by rw [List.append_nil, whole]; exact kept.2), List.append_nil, whole, List.map_nil]

theorem reaches_late (now : Midway) (line : OpenLine) (kept : Kept line.buffer)
    (arrivals : List Arrival) : ∃ input buffer reads reading,
    { now with
      queue := none, cut := [], reading := true, input := arrivals
      buffer := line.buffer }.Reaches
    { now with
      queue := none, cut := [], reading := reading, input := input, buffer := buffer
      reads := reads, records := now.records ++ (lateRecords line arrivals).1 } := by
  have nothing (silent : (lateRecords line arrivals).1 = []) : ∃ input buffer reads reading,
      { now with
        queue := none, cut := [], reading := true, input := arrivals
        buffer := line.buffer }.Reaches
      { now with
        queue := none, cut := [], reading := reading, input := input, buffer := buffer
        reads := reads, records := now.records ++ (lateRecords line arrivals).1 } := by
    rw [silent, List.append_nil]
    exact ⟨arrivals, line.buffer, now.reads, true, Reaches.refl _⟩
  cases arrivals with
  | nil => exact nothing rfl
  | cons arrival rest =>
      cases arrival with
      | ending => exact nothing rfl
      | failure number => exact nothing rfl
      | bytes data =>
          cases data with
          | nil =>
              refine nothing ?_
              simp [lateRecords, hearLate, hear_nil kept]
          | cons byte others =>
              obtain ⟨reading, dealt⟩ := reaches_dealt_late { now with
                reading := true
                input := if (byte :: others).length ≤ readLimit then rest
                  else .bytes ((byte :: others).drop readLimit) :: rest
                buffer := (hear line.buffer ((byte :: others).take readLimit)).2
                reads := now.reads ++ [(byte :: others).take readLimit] }
                (hear line.buffer ((byte :: others).take readLimit)).1
              exact ⟨_, _, _, reading, (Reaches.one .read rfl).trans dealt⟩

theorem reaches_quit (stopping : now.stopping = true) (dealt : now.cut = [])
    (shut : now.queue = none) : now.Reaches { now with reading := false } := by
  cases reading : now.reading with
  | false =>
      rw [← reading]
      exact Reaches.refl now
  | true =>
      refine Reaches.one .quit ?_
      rw [Midway.turn, if_pos ⟨reading, dealt, stopping⟩, put, shut, Option.map_none]

theorem Shows.published {first : List Event} (shows : now.Shows relay) (sound : now.Sound first)
    {line : OpenLine} (opened : relay.line = some line) :
    relay.published = first ++ now.published := by
  obtain ⟨queue, _, _, _⟩ := shows.opened opened
  have handed := sound.handed line.published queue
  rw [shows.received] at handed
  rw [Relay.published, opened]
  exact handed

theorem rests_stop (kept : Kept now.buffer) (rests : now.Rests relay) {line : OpenLine}
    (opened : relay.line = some line) :
    ∃ next, now.Reaches next ∧ next.Rests relay.stop.1 := by
  obtain ⟨_, buffer, reading, _⟩ := rests.shows.opened opened
  have cut := rests.shows.cut
  let shut : Midway := { now with cut := [], stopping := true, queue := none, waiting := [] }
  have shuts : now.Reaches shut := by
    have shape : shut = { now with stopping := true, queue := none, waiting := [] } := by
      simp only [shut, ← cut]
    exact ⟨[.stop, .shut], by rw [shape]; rfl⟩
  have late : ∃ input buffer reads reading, shut.Reaches { shut with
      input := input, buffer := buffer, reads := reads, reading := reading
      records := now.records ++ relay.heardLate.1 } := by
    cases working : line.reading && line.onDevice with
    | true =>
        rw [Bool.and_eq_true] at working
        have device : relay.wayIn.onDevice = true := by
          simp [WayIn.onDevice, wayIn, opened, working.2]
        let arrivals := relay.device.late.foldl Device.join relay.device.arrivals
        have arrived := reaches_arrived shut relay.device.late
        rw [show shut.input = relay.device.arrivals from rests.input device] at arrived
        obtain ⟨input, buffer', reads, reading', noted⟩ :=
          reaches_late shut line (buffer ▸ kept) arrivals
        refine ⟨input, buffer', reads, reading', arrived.trans ?_⟩
        have same : { shut with input := arrivals } = { shut with
            queue := none, cut := [], reading := true, input := arrivals
            buffer := line.buffer } := by
          rw [← buffer, ← working.1, ← reading]
        have found : relay.heardLate.1 = (lateRecords line arrivals).1 := by
          simp [heardLate, opened, working, arrivals]
        rw [same, found]
        exact noted
    | false =>
        refine ⟨now.input, now.buffer, now.reads, now.reading, ?_⟩
        have nothing : relay.heardLate.1 = [] := by simp [heardLate, opened, working]
        rw [nothing, List.append_nil]
        exact Reaches.refl shut
  obtain ⟨input, buffer', reads, reading', noted⟩ := late
  refine ⟨_, (shuts.trans noted).trans (reaches_quit rfl rfl rfl), ?_, ?_, ?_⟩
  · have stopped := wayIn_stop relay
    constructor
    · exact rests.shows.path.trans (path_stop relay).symm
    · rw [stopped]
      exact rests.shows.received
    · rw [stopped]
    · rw [stopped]
      exact congrArg (· ++ relay.heardLate.1) rests.shows.records
    · rw [stopped]
      rfl
    · rw [stopped]
      rfl
    · rfl
    · exact rests.shows.busy
  · intro device
    simp [WayIn.onDevice, wayIn_stop] at device
  · exact settled_iff.mpr
      ⟨rfl, rests.shows.busy, (absurd · Bool.false_ne_true), Or.inl rfl⟩

end Midway

/-- In whatever order the turns are taken, the consumers have received a beginning of what the reader
has published, in order and each event once, and all of it if nothing more happens by itself while one
of them waits. Once the queue has been shut nobody receives anything, no failed read is reported, and
every consumer ends. The acts of a relay are such turns; what its reader publishes is what it hears in
the input, whatever else is done to the relay. -/
theorem delivers_in_order {relay : Relay} {tree : Filesystem}
    (started : (relay.start tree).2.2 = none) :
    (∀ moment, (relay.outset tree).Reaches moment →
      moment.received <+: relay.received ++ moment.published ∧
      moment.published <+: events (hearAll [] moment.reads).1 ∧
      (moment.Settled → moment.waiting ≠ [] →
        moment.received = relay.received ++ moment.published ∧
        moment.published = events (hearAll [] moment.reads).1) ∧
      (moment.queue = none → ∀ last, moment.Reaches last →
        last.received = moment.received ∧ last.waiting = [] ∧ (last.Settled → last.busy = []) ∧
        ∃ notes, last.records = moment.records ++ notes ∧
          ∀ note ∈ notes, note.level ≠ Journal.warning)) ∧
    ∀ acts : List Act, (∀ act ∈ acts, act.stays) →
      let now := (relay.start tree).1.run acts
      let heard := (listen (some []) (relay.input tree acts)).1
      (∃ moment, (relay.outset tree).Reaches moment ∧ moment.Rests now ∧
        moment.published = heard ∧ ∃ last, moment.Reaches last ∧ last.Rests now.stop.1) ∧
      now.published = relay.received ++ heard ∧
      (∃ received, now.received = relay.received ++ received ∧ received <+: heard) ∧
      (now.waiting ≠ [] → now.received = relay.received ++ heard) ∧
      (∃ notes, now.stop.1.readerRecords = now.readerRecords ++ notes ∧
        ∀ note ∈ notes, note.level = Journal.debug) ∧
      ∀ later, (∀ act ∈ later, ∀ tree, act ≠ .start tree) →
        (now.stop.1.run later).received = now.received ∧
        (now.stop.1.run later).readerRecords = now.stop.1.readerRecords ∧
        ∀ consumer, (now.stop.1.run later).consumerEnded consumer = true := by
  constructor
  · intro moment reached
    have sound := reached.sound (Midway.sound_outset relay tree)
    have shut := reached.shut (by simp [outset])
    refine ⟨sound.received, sound.published, sound.whole shut, fun closed last later => ?_⟩
    have silent := later.silent (shut closed)
    refine ⟨silent.received, silent.shut.waiting, fun settled => ?_, silent.records⟩
    exact (Midway.settled_iff.mp settled).2.1
  · intro acts stays now heard
    have run := run_in_order started stays
    refine ⟨?_, run⟩
    obtain ⟨begun, starts, rests⟩ := Midway.rests_start started
    obtain ⟨moment, goes, rests⟩ := Midway.rests_run rests stays
    have reached := starts.trans goes
    have sound := reached.sound (Midway.sound_outset relay tree)
    obtain ⟨line, opened⟩ := Option.isSome_iff_exists.mp (isOpen_run started stays)
    have published := rests.shows.published sound opened
    rw [run.1] at published
    have kept : Kept moment.buffer := sound.buffer ▸ kept_hearAll kept_nil moment.reads
    exact ⟨moment, reached, rests, (List.append_cancel_left published).symm,
      Midway.rests_stop kept rests opened⟩

/-- One event is there before the consumers, one comes after them; a read fails during the stop, and
there is more input after it. In other orders both events come in one read and a consumer joins between
them, and the queue is shut with the second one in it. -/
theorem delivers_in_order_two_consumers :
    let down := Event.keyDownWord ++ [0x20, 0x41, lineFeed]
    let up := Event.keyUpWord ++ [0x20, 0x42, lineFeed]
    let relay : Relay := { path := "dev0", device := { arrivals := [.bytes down] } }
    let acts : List Act := [.consume, .consume, .feed (up ++ down.take 3),
      .undergo (.lateArrival (.failure 5))]
    let later : List Act := [.consume, .feed up]
    let now := (relay.start .empty).1.run acts
    let course : List Turn := [.arrive (.bytes up), .join 0, .read, .deal, .take 0, .join 1, .deal]
    let settled : Midway := { path := "dev0", input := [], waiting := [1, 0]
                              received := [.keyDown 0x41, .keyUp 0x42], reads := [down ++ up]
                              published := [.keyDown 0x41, .keyUp 0x42] }
    let shut : Midway := { settled with
      stopping := true, queue := none, waiting := [], busy := [0], received := [.keyDown 0x41] }
    let last : Midway := { shut with reading := false, busy := [] }
    (relay.start .empty).2.2 = none ∧ (∀ act ∈ acts, act.stays) ∧ now.waiting = [1, 0] ∧
      now.received = [.keyDown 0x41, .keyUp 0x42] ∧
      (∀ act ∈ later, ∀ tree, act ≠ .start tree) ∧
      (now.stop.1.run later).received = [.keyDown 0x41, .keyUp 0x42] ∧
      (now.stop.1.run later).readerRecords = [] ∧
      (∀ consumer, (now.stop.1.run later).consumerEnded consumer = true) ∧
      (relay.outset .empty).turns (course ++ [.again 0, .take 0, .again 0]) = some settled ∧
      settled.Settled ∧ settled.received = relay.received ++ settled.published ∧
      (relay.outset .empty).turns (course ++ [.stop, .shut]) = some shut ∧
      shut.turns [.again 0, .join 2, .arrive (.failure 5), .read] = some last ∧
      last.received = shut.received ∧ last.busy = [] := by
  intro down up relay acts later now course settled shut last
  have started : (relay.start .empty).2.2 = none := rfl
  have stays : ∀ act ∈ acts, act.stays := by simp [acts, Act.stays, Act.feed]
  have closed : ∀ act ∈ later, ∀ tree, act ≠ .start tree := by simp [later, Act.feed]
  have waiting : now.waiting = [1, 0] := by decide +kernel
  have heard : (listen (some []) (relay.input .empty acts)).1 = [.keyDown 0x41, .keyUp 0x42] := by
    decide +kernel
  obtain ⟨moments, runs⟩ := delivers_in_order started
  obtain ⟨_, _, _, whole, _, after⟩ := runs acts stays
  have received : now.received = [.keyDown 0x41, .keyUp 0x42] := by
    have all := whole (by rw [waiting]; simp)
    rwa [heard] at all
  obtain ⟨kept, records, ended⟩ := after later closed
  have settles : (relay.outset .empty).turns (course ++ [.again 0, .take 0, .again 0]) =
      some settled := by decide
  have shuts : (relay.outset .empty).turns (course ++ [.stop, .shut]) = some shut := by decide
  have fails : shut.turns [.again 0, .join 2, .arrive (.failure 5), .read] = some last := by decide
  have rests : settled.Settled :=
    Midway.settled_iff.mpr ⟨rfl, rfl, fun _ => ⟨rfl, rfl⟩, Or.inr rfl⟩
  have ends : last.Settled :=
    Midway.settled_iff.mpr ⟨rfl, rfl, (absurd · Bool.false_ne_true), Or.inl rfl⟩
  obtain ⟨_, _, all, _⟩ := moments settled ⟨_, settles⟩
  obtain ⟨_, _, _, silent⟩ := moments shut ⟨_, shuts⟩
  obtain ⟨same, _, free, _⟩ := silent rfl last ⟨_, fails⟩
  refine ⟨started, stays, waiting, received, closed, kept.trans received, records.trans ?_, ended,
    settles, rests, (all rests (List.cons_ne_nil 1 [0])).1, shuts, fails, same, free ends⟩
  decide +kernel

end SteeringChannel.Relay
