import SteeringChannel.Relay

/-!
What happens to a relay from the side of its device, and what can be seen of a relay afterwards.
-/

namespace SteeringChannel.Relay

inductive Happening where
  | arrival (arrival : Arrival)
  | lateArrival (arrival : Arrival)
  | writeFailure (number : Int)
  | hold
  | release
  deriving DecidableEq, Repr

def undergo (relay : Relay) : Happening → Relay
  | .arrival arrival => relay.arrive arrival
  | .lateArrival arrival => relay.arriveLate arrival
  | .writeFailure number => relay.failWrite number
  | .hold => relay.hold
  | .release => relay.release

/-- What can be seen of a relay. Nothing that has been seen is taken back. -/
structure Trace where
  written : List UInt8 := []
  calls : List Call := []
  received : List Event := []
  readerRecords : List Journal.Record := []
  writerRecords : List Journal.Record := []
  deriving DecidableEq, Repr

def trace (relay : Relay) : Trace :=
  { written := relay.device.written
    calls := relay.device.calls
    received := relay.received
    readerRecords := relay.readerRecords
    writerRecords := relay.writerRecords }

namespace Trace

def since (later earlier : Trace) : Trace :=
  { written := later.written.drop earlier.written.length
    calls := later.calls.drop earlier.calls.length
    received := later.received.drop earlier.received.length
    readerRecords := later.readerRecords.drop earlier.readerRecords.length
    writerRecords := later.writerRecords.drop earlier.writerRecords.length }

def records (trace : Trace) : List Journal.Record := trace.readerRecords ++ trace.writerRecords

end Trace
end SteeringChannel.Relay
