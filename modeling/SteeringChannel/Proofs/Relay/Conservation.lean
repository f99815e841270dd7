import SteeringChannel.Proofs.Relay.Act

/-!
Where frames are. Whatever is done to a relay, each frame that it has accepted is either gone, as
written, as lost to one failure or as discarded by a stop, or it is in the writer's hands, or it
waits in the queue; and this order is the order in which the frames were forwarded.
-/

namespace SteeringChannel.Relay

inductive Fate where
  | written
  | lost (number : Int)
  | discarded
  deriving DecidableEq, Repr

structure Gone where
  byte : UInt8
  fate : Fate
  deriving DecidableEq, Repr

namespace Gone

def written? : Gone → Option UInt8
  | ⟨byte, .written⟩ => some byte
  | _ => none

def failure? : Gone → Option Int
  | ⟨_, .lost number⟩ => some number
  | _ => none

def discarded? : Gone → Option UInt8
  | ⟨byte, .discarded⟩ => some byte
  | _ => none

end Gone

/-- Between two states a relay parts with frames: some are written, each failure that is used up
takes one of them and leaves one record, and the others are discarded. -/
structure Parts (relay next : Relay) (gone : List Gone) (due : List Int)
    (discarded : List UInt8) : Prop where
  path : next.path = relay.path
  name : next.device.name = relay.device.name
  size : next.queueSize = relay.queueSize
  written : next.device.written = relay.device.written ++
    if relay.path = relay.device.name then (gone.filterMap Gone.written?).flatMap frame else []
  failures : relay.device.writeFailures ++ due =
    gone.filterMap Gone.failure? ++ next.device.writeFailures
  records : next.writerRecords =
    relay.writerRecords ++ (gone.filterMap Gone.failure?).map relay.writeRecord
  discarded : gone.filterMap Gone.discarded? = discarded

namespace Parts

theorem still {relay next : Relay}
    (same : { next.wayOut with held := relay.wayOut.held, line := relay.wayOut.line } =
      relay.wayOut) : Parts relay next [] [] [] where
  path := congrArg WayOut.path same
  name := congrArg WayOut.name same
  size := congrArg WayOut.queueSize same
  written := by
    have written : next.device.written = relay.device.written := congrArg WayOut.written same
    simp [written]
  failures := by
    have failures : next.device.writeFailures = relay.device.writeFailures :=
      congrArg WayOut.failures same
    simp [failures]
  records := by
    have records : next.writerRecords = relay.writerRecords := congrArg WayOut.records same
    simp [records]
  discarded := rfl

theorem trans {relay next last : Relay} {gone later : List Gone} {due dueLater : List Int}
    {discarded discardedLater : List UInt8} (first : Parts relay next gone due discarded)
    (second : Parts next last later dueLater discardedLater) :
    Parts relay last (gone ++ later) (due ++ dueLater) (discarded ++ discardedLater) where
  path := second.path.trans first.path
  name := second.name.trans first.name
  size := second.size.trans first.size
  written := by
    rw [second.written, first.written, first.path, first.name]
    split <;> simp
  failures := by
    rw [← List.append_assoc, first.failures, List.append_assoc, second.failures]
    simp
  records := by
    have same : next.writeRecord = relay.writeRecord := by
      funext number
      rw [writeRecord, writeRecord, first.path]
    rw [second.records, first.records, same]
    simp
  discarded := by rw [List.filterMap_append, first.discarded, second.discarded]

end Parts

theorem Parts.discard {relay next : Relay} {gone : List Gone} {due : List Int}
    {discarded : List UInt8} (parts : Parts relay next gone due discarded) (bytes : List UInt8) :
    Parts relay next (gone ++ bytes.map fun byte => ⟨byte, .discarded⟩) due
      (discarded ++ bytes) := by
  have written : (bytes.map fun byte => Gone.mk byte .discarded).filterMap Gone.written? = [] := by
    simp [List.filterMap_map, Function.comp_def, Gone.written?]
  have lost : (bytes.map fun byte => Gone.mk byte .discarded).filterMap Gone.failure? = [] := by
    simp [List.filterMap_map, Function.comp_def, Gone.failure?]
  have dropped :
      (bytes.map fun byte => Gone.mk byte .discarded).filterMap Gone.discarded? = bytes := by
    simp [List.filterMap_map, Function.comp_def, Gone.discarded?]
  constructor
  case path => exact parts.path
  case name => exact parts.name
  case size => exact parts.size
  case written => rw [parts.written, List.filterMap_append, written, List.append_nil]
  case failures => rw [parts.failures, List.filterMap_append, lost, List.append_nil]
  case records => rw [parts.records, List.filterMap_append, lost, List.append_nil]
  case discarded => rw [List.filterMap_append, parts.discarded, dropped]

def WayOut.inHand (way : WayOut) : List UInt8 := (way.line.bind Outward.inHand).toList

def WayOut.queue (way : WayOut) : List UInt8 := (way.line.map Outward.queue).getD []

def WayOut.carried (way : WayOut) : List UInt8 := way.inHand ++ way.queue

structure Outward.Settled (line : Outward) (way : WayOut) : Prop where
  device : line.onDevice = decide (way.path = way.name)
  room : (line.queue.length : Int) ≤ way.queueSize
  led : line.inHand = none → line.queue = []
  moving : (line.onDevice && way.held) = false → line.inHand = none

def WayOut.Settled (way : WayOut) : Prop := ∀ line, way.line = some line → line.Settled way

def Conserves (relay next : Relay) (taken : List UInt8) (due : List Int)
    (discarded : List UInt8) : Prop :=
  ∃ gone, relay.wayOut.carried ++ taken = gone.map Gone.byte ++ next.wayOut.carried ∧
    Parts relay next gone due discarded

theorem Conserves.still {relay next : Relay}
    (same : { next.wayOut with held := relay.wayOut.held } = relay.wayOut) :
    Conserves relay next [] [] [] := by
  have line : next.wayOut.line = relay.wayOut.line := (congrArg WayOut.line same :)
  refine ⟨[], ?_, Parts.still ?_⟩
  · simp [WayOut.carried, WayOut.inHand, WayOut.queue, line]
  · rw [← line]
    exact same

theorem Conserves.trans {relay next last : Relay} {taken later : List UInt8}
    {due dueLater : List Int} {discarded discardedLater : List UInt8}
    (first : Conserves relay next taken due discarded)
    (second : Conserves next last later dueLater discardedLater) :
    Conserves relay last (taken ++ later) (due ++ dueLater) (discarded ++ discardedLater) := by
  obtain ⟨gone, carried, parts⟩ := first
  obtain ⟨goneLater, carriedLater, partsLater⟩ := second
  refine ⟨gone ++ goneLater, ?_, parts.trans partsLater⟩
  rw [← List.append_assoc, carried, List.append_assoc, carriedLater]
  simp

theorem wayOut_opened {relay : Relay} {line : OpenLine} (opened : relay.line = some line) :
    relay.wayOut.line = some ⟨line.onDevice, line.inHand, line.queue⟩ := by
  simp [wayOut, opened]

def taken (relay : Relay) : Act → List UInt8
  | .forward raw =>
      if (relay.forward raw).failure = none ∧ (relay.forward raw).records = [] then
        [UInt8.ofNat raw.toNat]
      else []
  | _ => []

def dropped (relay : Relay) : Act → List UInt8
  | .stop => relay.wayOut.queue
  | _ => []

def Act.due : Act → List Int
  | .undergo (.writeFailure number) => [number]
  | _ => []

def Act.Allowed (relay : Relay) : Act → Prop
  | .start _ => relay.isOpen = false
  | _ => True

theorem WayOut.Settled.at {relay : Relay} (settled : relay.wayOut.Settled) {line : OpenLine}
    (opened : relay.line = some line) :
    Outward.Settled ⟨line.onDevice, line.inHand, line.queue⟩ relay.wayOut :=
  settled _ (wayOut_opened opened)

theorem isFull_iff {relay : Relay} (bounded : 1 ≤ relay.queueSize) (settled : relay.wayOut.Settled)
    {line : OpenLine} (opened : relay.line = some line) :
    relay.isFull line = true ↔ (line.queue.length : Int) = relay.queueSize := by
  have room : (line.queue.length : Int) ≤ relay.queueSize := (settled.at opened).room
  simp only [isFull, Bool.and_eq_true, decide_eq_true_eq]
  omega

def Fits (relay : Relay) : List Act → Prop
  | [] => True
  | act :: rest => act.Allowed relay ∧ (relay.perform act).Fits rest

def accepted (relay : Relay) : List Act → List UInt8
  | [] => []
  | act :: rest => relay.taken act ++ (relay.perform act).accepted rest

def discarded (relay : Relay) : List Act → List UInt8
  | [] => []
  | act :: rest => relay.dropped act ++ (relay.perform act).discarded rest

/-- What a relay does with a byte depends on whether it is started, on whether the number is a byte
at all, and on whether the queue is full; nothing else can make it drop a byte. -/
structure Answers (relay : Relay) (raw : Int) : Prop where
  closed : relay.isOpen = false → relay.forward raw =
    { next := relay
      records := [record Journal.debug ("Relay not started, dropping byte " ++ byteText raw)] }
  refused : relay.isOpen = true → raw < 0 ∨ 255 < raw → relay.forward raw =
    { next := relay, failure := some ⟨"ValueError", CommandError.notAByte.message⟩ }
  dropped : relay.isOpen = true → 0 ≤ raw ∧ raw ≤ 255 → (relay.forward raw =
      { next := relay
        records := [record Journal.warning ("Relay queue full, dropping byte " ++ byteText raw)] } ↔
    (relay.wayOut.queue.length : Int) = relay.queueSize)
  accepted : relay.isOpen = true → 0 ≤ raw ∧ raw ≤ 255 →
    (relay.taken (.forward raw) = [UInt8.ofNat raw.toNat] ↔
      (relay.wayOut.queue.length : Int) ≠ relay.queueSize)

theorem forward_full {relay : Relay} (bounded : 1 ≤ relay.queueSize)
    (settled : relay.wayOut.Settled) (started : relay.isOpen = true) {raw : Int}
    (within : 0 ≤ raw ∧ raw ≤ 255)
    (full : (relay.wayOut.queue.length : Int) = relay.queueSize) :
    relay.forward raw =
      { next := relay
        records := [record Journal.warning
          ("Relay queue full, dropping byte " ++ byteText raw)] } := by
  obtain ⟨line, opened⟩ := Option.isSome_iff_exists.mp started
  have isFull : relay.isFull line = true := by
    rw [isFull_iff bounded settled opened, ← full]
    simp [WayOut.queue, wayOut_opened opened]
  simp [forward, opened, isFull, Int.not_lt.mpr within.1, Int.not_lt.mpr within.2]

theorem forward_free {relay : Relay} (bounded : 1 ≤ relay.queueSize)
    (settled : relay.wayOut.Settled) (started : relay.isOpen = true) {raw : Int}
    (within : 0 ≤ raw ∧ raw ≤ 255)
    (free : (relay.wayOut.queue.length : Int) ≠ relay.queueSize) :
    (relay.forward raw).failure = none ∧ (relay.forward raw).records = [] := by
  obtain ⟨line, opened⟩ := Option.isSome_iff_exists.mp started
  have notFull : relay.isFull line = false := by
    rw [Bool.eq_false_iff, Ne, isFull_iff bounded settled opened]
    simpa [WayOut.queue, wayOut_opened opened] using free
  simp [forward, opened, notFull, Int.not_lt.mpr within.1, Int.not_lt.mpr within.2]

theorem answers {relay : Relay} (bounded : 1 ≤ relay.queueSize)
    (settled : relay.wayOut.Settled) (raw : Int) : relay.Answers raw := by
  constructor
  case closed =>
    intro closed
    have none : relay.line = none := by simpa [isOpen] using closed
    simp [forward, none]
  case refused =>
    intro started beyond
    obtain ⟨line, opened⟩ := Option.isSome_iff_exists.mp started
    simp [forward, opened, beyond]
  case dropped =>
    intro started within
    refine ⟨fun dropped => ?_, forward_full bounded settled started within⟩
    by_cases full : (relay.wayOut.queue.length : Int) = relay.queueSize
    · exact full
    · have silent := (forward_free bounded settled started within full).2
      simp [dropped] at silent
  case accepted =>
    intro started within
    constructor
    · intro accepted full
      simp [taken, forward_full bounded settled started within full] at accepted
    · intro free
      exact if_pos (forward_free bounded settled started within free)

end SteeringChannel.Relay
