import SteeringChannel.Relay.Happening

/-!
What can be done to a relay, and what each act leaves alone. The way out and the way in meet only
in the started line and in the device: no frame is touched by what comes in, and no event by what
goes out.
-/

namespace SteeringChannel.Relay

inductive Act where
  | start (tree : Filesystem)
  | stop
  | forward (raw : Int)
  | consume
  | undergo (happening : Happening)
  deriving DecidableEq, Repr

def perform (relay : Relay) : Act → Relay
  | .start tree => (relay.start tree).1
  | .stop => relay.stop.1
  | .forward raw => (relay.forward raw).next
  | .consume => relay.consume
  | .undergo happening => relay.undergo happening

def run (relay : Relay) (acts : List Act) : Relay := acts.foldl perform relay

structure Outward where
  onDevice : Bool
  inHand : Option UInt8
  queue : List UInt8
  deriving DecidableEq, Repr

structure WayOut where
  path : String
  queueSize : Int
  name : String
  held : Bool
  failures : List Int
  written : List UInt8
  records : List Journal.Record
  line : Option Outward
  deriving DecidableEq, Repr

def wayOut (relay : Relay) : WayOut :=
  { path := relay.path
    queueSize := relay.queueSize
    name := relay.device.name
    held := relay.device.held
    failures := relay.device.writeFailures
    written := relay.device.written
    records := relay.writerRecords
    line := relay.line.map fun line => ⟨line.onDevice, line.inHand, line.queue⟩ }

structure Inward where
  onDevice : Bool
  buffer : List UInt8
  reading : Bool
  published : List Signal
  deriving DecidableEq, Repr

structure WayIn where
  arrivals : List Arrival
  late : List Arrival
  consumers : Nat
  waiting : List Nat
  received : List Event
  records : List Journal.Record
  line : Option Inward
  deriving DecidableEq, Repr

def wayIn (relay : Relay) : WayIn :=
  { arrivals := relay.device.arrivals
    late := relay.device.late
    consumers := relay.consumers
    waiting := relay.waiting
    received := relay.received
    records := relay.readerRecords
    line := relay.line.map fun line =>
      ⟨line.onDevice, line.buffer, line.reading, line.published⟩ }

theorem open_eq (device : Device) (baudrate : Int) : ∃ line calls,
    (device.open baudrate).1 = { device with line := line, calls := calls } := by
  unfold Device.open
  split
  · exact ⟨device.line, device.calls, rfl⟩
  · split
    · exact ⟨device.line, _, rfl⟩
    · split
      · exact ⟨_, _, rfl⟩
      · exact ⟨device.line, _, rfl⟩

theorem wayIn_writeFrame (relay : Relay) (onDevice : Bool) (byte : UInt8) :
    (relay.writeFrame onDevice byte).wayIn = relay.wayIn := by
  cases onDevice with
  | false => rfl
  | true =>
      simp only [writeFrame, Device.write]
      cases relay.device.writeFailures <;> rfl

theorem wayIn_writeFrames (relay : Relay) (onDevice : Bool) (bytes : List UInt8) :
    (relay.writeFrames onDevice bytes).wayIn = relay.wayIn := by
  induction bytes generalizing relay with
  | nil => rfl
  | cons byte rest ih => exact (ih (relay.writeFrame onDevice byte)).trans (wayIn_writeFrame ..)

theorem wayIn_drain (relay : Relay) : relay.drain.wayIn = relay.wayIn := by
  unfold drain
  split
  next => rfl
  next line opened =>
    split
    · split <;> simp [wayIn, opened]
    · rw [wayIn_writeFrames]
      simp [wayIn, opened]

theorem wayIn_forward (relay : Relay) (raw : Int) :
    (relay.forward raw).next.wayIn = relay.wayIn := by
  unfold forward
  split
  next => rfl
  next line opened =>
    split
    · rfl
    · split
      · rfl
      · rw [wayIn_drain]
        simp [wayIn, opened]

theorem wayIn_release (relay : Relay) : relay.release.wayIn = relay.wayIn := wayIn_drain _

theorem path_writeFrames (relay : Relay) (onDevice : Bool) (bytes : List UInt8) :
    (relay.writeFrames onDevice bytes).path = relay.path := by
  induction bytes generalizing relay with
  | nil => rfl
  | cons byte rest ih =>
      have first : (relay.writeFrame onDevice byte).path = relay.path := by
        cases onDevice with
        | false => rfl
        | true =>
            simp only [writeFrame, Device.write]
            cases relay.device.writeFailures <;> rfl
      exact (ih (relay.writeFrame onDevice byte)).trans first

theorem path_drain (relay : Relay) : relay.drain.path = relay.path := by
  unfold drain
  split
  next => rfl
  next line opened =>
    split
    · split <;> rfl
    · exact path_writeFrames ..

theorem path_forward (relay : Relay) (raw : Int) : (relay.forward raw).next.path = relay.path := by
  unfold forward
  split
  next => rfl
  next line opened =>
    split
    · rfl
    · split
      · rfl
      · exact path_drain _

end SteeringChannel.Relay
