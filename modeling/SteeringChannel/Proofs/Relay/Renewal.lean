import SteeringChannel.Proofs.Relay.Act

/-!
What lies behind a relay does not bear on what it does. A relay that is closed, with nobody waiting,
goes on as a new one on the same device would: what it has left of frames and events is forgotten.
-/

namespace SteeringChannel.Relay

structure Past where
  trace : Trace
  fileCalls : List Call
  deriving DecidableEq, Repr

def past (relay : Relay) : Past := ⟨relay.trace, relay.fileCalls⟩

def Device.after (device : Device) (past : Past) : Device :=
  { device with
    written := past.trace.written ++ device.written
    calls := past.trace.calls ++ device.calls }

def after (relay : Relay) (past : Past) : Relay :=
  { relay with
    device := relay.device.after past
    fileCalls := past.fileCalls ++ relay.fileCalls
    received := past.trace.received ++ relay.received
    readerRecords := past.trace.readerRecords ++ relay.readerRecords
    writerRecords := past.trace.writerRecords ++ relay.writerRecords }

def renewed (relay : Relay) : Relay :=
  { path := relay.path
    baudrate := relay.baudrate
    queueSize := relay.queueSize
    device := { relay.device with written := [], calls := [] }
    consumers := relay.consumers }

theorem renewed_after {relay : Relay} (closed : relay.line = none) (alone : relay.waiting = []) :
    relay.renewed.after relay.past = relay := by
  obtain ⟨path, baudrate, queueSize, device, fileCalls, line, consumers, waiting, received,
    readerRecords, writerRecords⟩ := relay
  obtain rfl : line = none := closed
  obtain rfl : waiting = [] := alone
  simp [renewed, after, past, trace, Device.after]

variable (relay : Relay) (past : Past)

theorem writeFrame_after (onDevice : Bool) (byte : UInt8) :
    (relay.after past).writeFrame onDevice byte = (relay.writeFrame onDevice byte).after past := by
  cases onDevice with
  | false => rfl
  | true =>
      cases due : relay.device.writeFailures <;>
        simp [writeFrame, Device.write, after, Device.after, due, writeRecord]

theorem writeFrames_after (onDevice : Bool) (bytes : List UInt8) :
    (relay.after past).writeFrames onDevice bytes =
      (relay.writeFrames onDevice bytes).after past := by
  induction bytes generalizing relay with
  | nil => rfl
  | cons byte rest ih =>
      simp only [writeFrames, List.foldl_cons, writeFrame_after]
      exact ih (relay.writeFrame onDevice byte)

theorem drain_after : (relay.after past).drain = relay.drain.after past := by
  unfold drain
  rw [show (relay.after past).line = relay.line from rfl]
  split
  next => rfl
  next line opened =>
    rw [show (relay.after past).device.held = relay.device.held from rfl]
    split
    next =>
      split
      next => rfl
      next => rfl
    next =>
      exact writeFrames_after { relay with line := some { line with inHand := none, queue := [] } }
        past line.onDevice (line.inHand.toList ++ line.queue)

theorem forward_after (raw : Int) :
    ((relay.after past).forward raw).next = (relay.forward raw).next.after past := by
  unfold forward
  rw [show (relay.after past).line = relay.line from rfl]
  split
  next => rfl
  next line opened =>
    split
    next => rfl
    next =>
      rw [show (relay.after past).isFull line = relay.isFull line from rfl]
      split
      next => rfl
      next =>
        exact drain_after { relay with
          line := some { line with queue := line.queue ++ [UInt8.ofNat raw.toNat] } } past

theorem settleEvents_after : (relay.after past).settleEvents = relay.settleEvents.after past := by
  unfold settleEvents
  rw [show (relay.after past).line = relay.line from rfl]
  split
  next => rfl
  next line opened => simp [after]

theorem readArrival_after (line : OpenLine) (arrival : Arrival) :
    (relay.after past).readArrival line arrival = (relay.readArrival line arrival).after past := by
  cases arrival <;> simp [readArrival, after, arrivalRecord?]

theorem readArrivals_after (arrivals : List Arrival) :
    (relay.after past).readArrivals arrivals =
      ((relay.readArrivals arrivals).1.after past, (relay.readArrivals arrivals).2) := by
  induction arrivals generalizing relay with
  | nil => rfl
  | cons arrival rest ih =>
      simp only [readArrivals]
      rw [show (relay.after past).line = relay.line from rfl]
      split
      next => rfl
      next line opened =>
        split
        next => rw [readArrival_after, ih]
        next => rfl

theorem readDevice_after : (relay.after past).readDevice = relay.readDevice.after past := by
  unfold readDevice
  rw [show (relay.after past).line = relay.line from rfl]
  split
  next => rfl
  next line opened =>
    split
    next =>
      rw [show (relay.after past).device.arrivals = relay.device.arrivals from rfl,
        readArrivals_after]
      generalize relay.readArrivals relay.device.arrivals = read
      exact settleEvents_after
        { read.1 with device := { read.1.device with arrivals := read.2 } } past
    next => rfl

theorem consume_after : (relay.after past).consume = relay.consume.after past :=
  settleEvents_after { relay with
    consumers := relay.consumers + 1
    waiting := if relay.isOpen then relay.waiting ++ [relay.consumers] else relay.waiting } past

theorem open_after (device : Device) (baudrate : Int) :
    (device.after past).open baudrate =
      ((device.open baudrate).1.after past, (device.open baudrate).2) := by
  obtain ⟨name, failure, line, arrivals, late, failures, held, written, calls⟩ := device
  obtain ⟨attributes, unreachable⟩ := line
  cases failure with
  | some number => rfl
  | none =>
      cases attributes with
      | none => simp [Device.open, Device.after, Device.note]
      | some attributes =>
          simp only [Device.open, Device.after]
          cases Terminal.configure baudrate ⟨some attributes, unreachable⟩ <;>
            simp [Device.note, Device.settleLine]

theorem start_after (tree : Filesystem) :
    (relay.after past).start tree =
      ((relay.start tree).1.after past, (relay.start tree).2) := by
  unfold start
  rw [show (relay.after past).path = relay.path from rfl,
    show (relay.after past).device = relay.device.after past from rfl,
    show (relay.device.after past).name = relay.device.name from rfl,
    show (relay.after past).baudrate = relay.baudrate from rfl, open_after]
  split
  next =>
    generalize relay.device.open relay.baudrate = opened
    obtain ⟨device, _ | error⟩ := opened
    · dsimp only
      rw [← readDevice_after]
      rfl
    · rfl
  next =>
    cases openPlain tree relay.path with
    | error error => rfl
    | ok input =>
        dsimp only
        have opened : (relay.after past).openFile = relay.openFile.after past := by
          simp [openFile, after]
        rw [opened, readArrivals_after, settleEvents_after]
        rfl

def parted (relay : Relay) (heard : List Journal.Record × List Arrival) : Relay :=
  { relay with
    device := { relay.device with arrivals := heard.2, late := [], held := false }
    line := none
    waiting := []
    readerRecords := relay.readerRecords ++ heard.1 }

def closing (relay : Relay) (onDevice : Bool) : Relay :=
  { relay with
    device := if onDevice then relay.device.note [.closed] else relay.device
    fileCalls := relay.fileCalls ++ if onDevice then [] else [.closed] }

theorem stop_opened {line : OpenLine} (opened : relay.line = some line) :
    let arrivals := relay.device.late.foldl Device.join relay.device.arrivals
    let heard := if line.reading && line.onDevice then lateRecords line arrivals else ([], arrivals)
    relay.stop = (((relay.parted heard).writeFrames line.onDevice line.inHand.toList).closing
      line.onDevice, [relay.stopRecord]) := by
  simp only [stop, opened]
  rfl

theorem parted_after (heard : List Journal.Record × List Arrival) :
    (relay.after past).parted heard = (relay.parted heard).after past := by
  simp [parted, after, Device.after]

theorem closing_after (onDevice : Bool) :
    (relay.after past).closing onDevice = (relay.closing onDevice).after past := by
  cases onDevice <;> simp [closing, after, Device.after, Device.note]

theorem stop_after : (relay.after past).stop = (relay.stop.1.after past, relay.stop.2) := by
  cases opened : relay.line with
  | none =>
      have shut : (relay.after past).line = none := opened
      simp only [stop, opened, shut]
      rfl
  | some line =>
      have open' : (relay.after past).line = some line := opened
      rw [stop_opened (relay.after past) open', stop_opened relay opened, parted_after,
        writeFrames_after, closing_after]
      rfl

theorem undergo_after (happening : Happening) :
    (relay.after past).undergo happening = (relay.undergo happening).after past := by
  cases happening with
  | arrival arrival =>
      exact readDevice_after { relay with device := relay.device.arrive arrival } past
  | lateArrival arrival => rfl
  | writeFailure number => rfl
  | hold => rfl
  | release =>
      exact drain_after { relay with device := { relay.device with held := false } } past

theorem perform_after (act : Act) :
    (relay.after past).perform act = (relay.perform act).after past := by
  cases act with
  | start tree => exact congrArg Prod.fst (start_after relay past tree)
  | stop => exact congrArg Prod.fst (stop_after relay past)
  | forward raw => exact forward_after relay past raw
  | consume => exact consume_after relay past
  | undergo happening => exact undergo_after relay past happening

end SteeringChannel.Relay
