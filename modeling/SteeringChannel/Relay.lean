import SteeringChannel.Dispatch
import SteeringChannel.Relay.Device
import SteeringChannel.Relay.Framing

/-!
The relay between the control channel and the subsystem. Outward, each byte becomes a frame in a
bounded queue from which one writer takes; inward, one reader turns the device's lines into events
that consumers wait for. Every operation runs until nothing more can happen by itself.
-/

namespace SteeringChannel

inductive Signal where
  | event (event : Event)
  | ended
  deriving DecidableEq, Repr

structure OpenLine where
  onDevice : Bool := true
  queue : List UInt8 := []
  inHand : Option UInt8 := none
  buffer : List UInt8 := []
  reading : Bool := true
  published : List Signal := []
  deriving DecidableEq, Repr

structure Relay where
  path : String
  baudrate : Int := 115200
  queueSize : Int := 256
  device : Relay.Device := {}
  fileCalls : List Relay.Call := []
  line : Option OpenLine := none
  consumers : Nat := 0
  waiting : List Nat := []
  received : List Event := []
  readerRecords : List Journal.Record := []
  writerRecords : List Journal.Record := []
  deriving DecidableEq, Repr

namespace Relay

def isOpen (relay : Relay) : Bool := relay.line.isSome

def record (level : Int) (message : String) : Journal.Record :=
  { level := level, source := Journal.Source.relay, message := message }

def describeFailure (number : Int) : String := (SystemError.mk number none).message

def byteText (raw : Int) : String :=
  "0x" ++ if raw < 0 then "-" ++ String.ofList (Text.hexDigits 1 raw.natAbs)
    else String.ofList (Text.hexDigits 2 raw.natAbs)

def frame (byte : UInt8) : List UInt8 := [byte, lineFeed]

def writeRecord (relay : Relay) (number : Int) : Journal.Record :=
  record Journal.warning
    ("Relay write to " ++ relay.path ++ " failed: " ++ describeFailure number)

def writeFrame (relay : Relay) (onDevice : Bool) (byte : UInt8) : Relay :=
  if !onDevice then relay
  else
    let (device, failure) := relay.device.write (frame byte)
    { relay with
      device := device
      writerRecords := relay.writerRecords ++ (failure.map relay.writeRecord).toList }

def writeFrames (relay : Relay) (onDevice : Bool) (bytes : List UInt8) : Relay :=
  bytes.foldl (fun relay byte => relay.writeFrame onDevice byte) relay

def drain (relay : Relay) : Relay :=
  match relay.line with
  | none => relay
  | some line =>
      if line.onDevice && relay.device.held then
        match line.inHand, line.queue with
        | none, byte :: rest =>
            { relay with line := some { line with inHand := some byte, queue := rest } }
        | _, _ => relay
      else
        { relay with line := some { line with inHand := none, queue := [] } }.writeFrames
          line.onDevice (line.inHand.toList ++ line.queue)

def isFull (relay : Relay) (line : OpenLine) : Bool :=
  0 < relay.queueSize && relay.queueSize ≤ line.queue.length

def forward (relay : Relay) (raw : Int) : Forwarding Relay :=
  match relay.line with
  | none =>
      { next := relay
        records := [record Journal.debug ("Relay not started, dropping byte " ++ byteText raw)] }
  | some line =>
      if raw < 0 || 255 < raw then
        { next := relay, failure := some ⟨"ValueError", CommandError.notAByte.message⟩ }
      else if relay.isFull line then
        { next := relay
          records := [record Journal.warning ("Relay queue full, dropping byte " ++ byteText raw)] }
      else
        { next := drain { relay with
            line := some { line with queue := line.queue ++ [UInt8.ofNat raw.toNat] } } }

instance : Outlet Relay := ⟨Relay.forward⟩

def hold (relay : Relay) : Relay := { relay with device := { relay.device with held := true } }

def release (relay : Relay) : Relay :=
  drain { relay with device := { relay.device with held := false } }

def failWrite (relay : Relay) (number : Int) : Relay :=
  { relay with
    device := { relay.device with writeFailures := relay.device.writeFailures ++ [number] } }

/-- Hands signals to waiting consumers, the one that has waited longest first. A consumer that
gets an event waits again; one that gets the end is done. -/
def deliver : List Nat → List Signal → List Nat × List Event × List Signal
  | waiting, [] => (waiting, [], [])
  | [], signals => ([], [], signals)
  | consumer :: others, .event event :: rest =>
      let (waiting, received, left) := deliver (others ++ [consumer]) rest
      (waiting, event :: received, left)
  | _ :: others, .ended :: rest => deliver others rest

def settleEvents (relay : Relay) : Relay :=
  match relay.line with
  | none => relay
  | some line =>
      let (waiting, received, left) := deliver relay.waiting line.published
      { relay with
        waiting := waiting
        received := relay.received ++ received
        line := some { line with published := left } }

def heardRecord? : Heard → Option Journal.Record
  | .event _ => none
  | .ignored line =>
      some (record Journal.debug ("Ignoring subsystem line " ++ Text.quoteBytes line))
  | .discarded bytes =>
      some (record Journal.debug
        ("Discarding unterminated subsystem line " ++ Text.quoteBytes bytes))

def arrivalRecord? (relay : Relay) : Arrival → Option Journal.Record
  | .bytes _ => none
  | .ending =>
      some (record Journal.info ("Relay device " ++ relay.path ++ " reached end of input"))
  | .failure number =>
      some (record Journal.warning
        ("Relay read from " ++ relay.path ++ " failed: " ++ describeFailure number))

def readArrival (relay : Relay) (line : OpenLine) (arrival : Arrival) : Relay :=
  match arrival with
  | .bytes data =>
      let (heard, buffer) := hearAll line.buffer (readsOf data)
      { relay with
        line := some { line with
          buffer := buffer
          published := line.published ++ (heard.filterMap Heard.event?).map Signal.event }
        readerRecords := relay.readerRecords ++ heard.filterMap heardRecord? }
  | other =>
      { relay with
        line := some { line with reading := false, published := line.published ++ [.ended] }
        readerRecords := relay.readerRecords ++ (relay.arrivalRecord? other).toList }

def readArrivals (relay : Relay) : List Arrival → Relay × List Arrival
  | [] => (relay, [])
  | arrival :: rest =>
      match relay.line with
      | none => (relay, arrival :: rest)
      | some line =>
          if line.reading then readArrivals (relay.readArrival line arrival) rest
          else (relay, arrival :: rest)

def readDevice (relay : Relay) : Relay :=
  match relay.line with
  | none => relay
  | some line =>
      if line.onDevice then
        let (next, left) := relay.readArrivals relay.device.arrivals
        settleEvents { next with device := { next.device with arrivals := left } }
      else relay

def arrive (relay : Relay) (arrival : Arrival) : Relay :=
  readDevice { relay with device := relay.device.arrive arrival }

def arriveLate (relay : Relay) (arrival : Arrival) : Relay :=
  { relay with device := { relay.device with late := Device.join relay.device.late arrival } }

def consume (relay : Relay) : Relay :=
  settleEvents { relay with
    consumers := relay.consumers + 1
    waiting := if relay.isOpen then relay.waiting ++ [relay.consumers] else relay.waiting }

def consumerEnded (relay : Relay) (consumer : Nat) : Bool := !relay.waiting.contains consumer

def startRecord (relay : Relay) : Journal.Record :=
  record Journal.info ("Relay started (device=" ++ relay.path ++ ", baud=" ++
    toString relay.baudrate ++ ")")

def stopRecord (relay : Relay) : Journal.Record :=
  record Journal.info ("Relay stopped (device=" ++ relay.path ++ ")")

/-- Where the path is not that of the device, the relay opens a plain file in its place. -/
def openFile (relay : Relay) : Relay :=
  { relay with
    fileCalls := relay.fileCalls ++ [.opened]
    line := some { onDevice := false } }

def start (relay : Relay) (tree : Filesystem) :
    Relay × List Journal.Record × Option StartError :=
  if relay.path = relay.device.name then
    match relay.device.open relay.baudrate with
    | (device, some error) => ({ relay with device := device }, [], some error)
    | (device, none) =>
        (readDevice { relay with device := device, line := some {} }, [relay.startRecord], none)
  else match openPlain tree relay.path with
    | .error error => (relay, [], some error)
    | .ok arrivals =>
        let (next, _) := relay.openFile.readArrivals arrivals
        (settleEvents next, [relay.startRecord], none)

/-- While the relay is being stopped the reader takes at most one more read. Lines that are no
events are still noted; the first event ends the reader. -/
def hearLate (buffer chunk : List UInt8) : List Journal.Record :=
  let heard := (hear buffer chunk).1
  let before := heard.takeWhile fun heard => heard.event?.isNone
  before.filterMap heardRecord?

def lateRecords (line : OpenLine) : List Arrival → List Journal.Record × List Arrival
  | .bytes data :: rest =>
      (hearLate line.buffer (data.take readLimit),
        if data.length ≤ readLimit then rest else .bytes (data.drop readLimit) :: rest)
  | _ :: rest => ([], rest)
  | [] => ([], [])

/-- Stopping drops what waits in both directions. A frame in the writer's hands is still written,
and whatever arrives meanwhile reaches nobody. -/
def stop (relay : Relay) : Relay × List Journal.Record :=
  let arrivals := relay.device.late.foldl Device.join relay.device.arrivals
  let relay := { relay with
    device := { relay.device with arrivals := arrivals, late := [], held := false }
    waiting := [] }
  match relay.line with
  | none => (relay, [])
  | some line =>
      let (records, left) :=
        if line.reading && line.onDevice then lateRecords line arrivals else ([], arrivals)
      let stopped := { relay with
        line := none
        device := { relay.device with arrivals := left }
        readerRecords := relay.readerRecords ++ records }.writeFrames
          line.onDevice line.inHand.toList
      ({ stopped with
          device := if line.onDevice then stopped.device.note [.closed] else stopped.device
          fileCalls := stopped.fileCalls ++ if line.onDevice then [] else [.closed] },
        [relay.stopRecord])

end Relay
end SteeringChannel
