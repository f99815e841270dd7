import SteeringChannel.Event

/-!
Cutting device input into lines. Bytes without a line feed wait in a buffer until the line feed
arrives; a buffer that reaches the line limit is thrown away.
-/

namespace SteeringChannel.Relay

inductive Heard where
  | event (event : Event)
  | ignored (line : List UInt8)
  | discarded (bytes : List UInt8)
  deriving DecidableEq, Repr

def lineFeed : UInt8 := 0x0a

def splitLines : List UInt8 → List (List UInt8) × List UInt8
  | [] => ([], [])
  | byte :: rest =>
      let (lines, tail) := splitLines rest
      if byte = lineFeed then ([] :: lines, tail)
      else match lines with
        | [] => ([], byte :: tail)
        | line :: others => ((byte :: line) :: others, tail)

def hearLine (line : List UInt8) : Heard :=
  match Event.ofLine line with
  | some event => .event event
  | none => .ignored line

def hear (buffer chunk : List UInt8) : List Heard × List UInt8 :=
  let (lines, tail) := splitLines (buffer ++ chunk)
  let heard := lines.map hearLine
  if Event.lineLimit ≤ tail.length then (heard ++ [.discarded tail], []) else (heard, tail)

def hearAll (buffer : List UInt8) : List (List UInt8) → List Heard × List UInt8
  | [] => ([], buffer)
  | chunk :: rest =>
      let first := hear buffer chunk
      let others := hearAll first.2 rest
      (first.1 ++ others.1, others.2)

def Heard.event? : Heard → Option Event
  | .event found => some found
  | _ => none

def readLimit : Nat := 64

def chunks : Nat → List UInt8 → List (List UInt8)
  | 0, _ => []
  | _, [] => []
  | fuel + 1, bytes => bytes.take readLimit :: chunks fuel (bytes.drop readLimit)

def readsOf (bytes : List UInt8) : List (List UInt8) := chunks bytes.length bytes

end SteeringChannel.Relay
