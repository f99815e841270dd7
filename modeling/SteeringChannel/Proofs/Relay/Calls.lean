import SteeringChannel.Proofs.Relay.Act

/-!
What a relay asks of its device. Between its start and its stop it asks for nothing more, so the
device is opened once at most, and closed again as often.
-/

namespace SteeringChannel.Relay

structure Grip where
  onDevice : Option Bool
  calls : List Call
  deriving DecidableEq, Repr

def grip (relay : Relay) : Grip := ⟨relay.line.map OpenLine.onDevice, relay.device.calls⟩

structure Footing where
  path : String
  name : String
  fileCalls : List Call
  grip : Grip
  deriving DecidableEq, Repr

def footing (relay : Relay) : Footing :=
  ⟨relay.path, relay.device.name, relay.fileCalls, relay.grip⟩

theorem footing_writeFrames (relay : Relay) (onDevice : Bool) (bytes : List UInt8) :
    (relay.writeFrames onDevice bytes).footing = relay.footing := by
  induction bytes generalizing relay with
  | nil => rfl
  | cons byte rest ih =>
      refine (ih (relay.writeFrame onDevice byte)).trans ?_
      cases onDevice with
      | false => rfl
      | true =>
          simp only [writeFrame, Device.write]
          cases relay.device.writeFailures <;> rfl

theorem footing_drain (relay : Relay) : relay.drain.footing = relay.footing := by
  unfold drain
  split
  next => rfl
  next line opened =>
    split
    · split <;> simp [footing, grip, opened]
    · rw [footing_writeFrames]
      simp [footing, grip, opened]

theorem footing_forward (relay : Relay) (raw : Int) :
    (relay.forward raw).next.footing = relay.footing := by
  unfold forward
  split
  next => rfl
  next line opened =>
    split
    · rfl
    · split
      · rfl
      · rw [footing_drain]
        simp [footing, grip, opened]

theorem footing_settleEvents (relay : Relay) : relay.settleEvents.footing = relay.footing := by
  unfold settleEvents
  split
  next => rfl
  next line opened => simp [footing, grip, opened]

theorem footing_readArrivals (relay : Relay) (arrivals : List Arrival) :
    (relay.readArrivals arrivals).1.footing = relay.footing := by
  induction arrivals generalizing relay with
  | nil => rfl
  | cons arrival rest ih =>
      simp only [readArrivals]
      split
      next => rfl
      next line opened =>
        split
        · rw [ih]
          cases arrival <;> simp [readArrival, footing, grip, opened]
        · rfl

theorem footing_readDevice (relay : Relay) : relay.readDevice.footing = relay.footing := by
  unfold readDevice
  split
  next => rfl
  next line opened =>
    split
    · rw [footing_settleEvents]
      exact footing_readArrivals relay relay.device.arrivals
    · rfl

theorem footing_consume (relay : Relay) : relay.consume.footing = relay.footing := by
  simp only [consume, footing_settleEvents]
  rfl

theorem footing_undergo (relay : Relay) (happening : Happening) :
    (relay.undergo happening).footing = relay.footing := by
  cases happening with
  | arrival arrival => exact footing_readDevice _
  | lateArrival arrival => rfl
  | writeFailure number => rfl
  | hold => rfl
  | release => exact footing_drain _

theorem grip_forward (relay : Relay) (raw : Int) : (relay.forward raw).next.grip = relay.grip :=
  congrArg Footing.grip (footing_forward relay raw)

theorem grip_consume (relay : Relay) : relay.consume.grip = relay.grip :=
  congrArg Footing.grip (footing_consume relay)

theorem grip_undergo (relay : Relay) (happening : Happening) :
    (relay.undergo happening).grip = relay.grip :=
  congrArg Footing.grip (footing_undergo relay happening)

/-- What was asked of a device that is closed: it may have been opened, changed and closed. -/
def Returned (before calls : List Call) : Prop :=
  calls = before ∨ ∃ changes : List Terminal.Change,
    calls = before ++ .opened :: (changes.map .changed ++ [.closed])

def Grip.Since (before : List Call) (grip : Grip) : Prop :=
  if grip.onDevice = some true then
    ∃ changes : List Terminal.Change, grip.calls = before ++ .opened :: changes.map .changed
  else Returned before grip.calls

theorem note_nil (device : Device) : device.note [] = device := by
  simp [Device.note]

theorem open_cases (device : Device) (baudrate : Int) :
    (∃ error, ∃ calls ∈ [[], [.opened, .closed]],
      device.open baudrate = (device.note calls, some error)) ∨
    (device.open baudrate).2 = none ∧ ∃ changes : List Terminal.Change,
      (device.open baudrate).1.calls = device.calls ++ .opened :: changes.map .changed := by
  unfold Device.open
  cases device.openFailure with
  | some number =>
      refine .inl ⟨.system ⟨number, some device.name⟩, [], by simp, ?_⟩
      rw [note_nil]
  | none =>
      cases device.line.attributes with
      | none => exact .inr ⟨rfl, [], rfl⟩
      | some attributes =>
          cases configured : Terminal.configure baudrate device.line with
          | ok changes => exact .inr ⟨rfl, changes, rfl⟩
          | error error => exact .inl ⟨_, _, by simp, rfl⟩

theorem start_footing (relay : Relay) (tree : Filesystem) :
    (∃ error, ∃ calls ∈ [[], [.opened, .closed]],
      (relay.path = relay.device.name ∨ calls = []) ∧ relay.start tree =
        ({ relay with device := relay.device.note calls }, [], some error)) ∨
    (relay.start tree).2 = ([relay.startRecord], none) ∧
      (relay.path = relay.device.name ∧ (∃ changes : List Terminal.Change,
        (relay.start tree).1.footing = ⟨relay.path, relay.device.name, relay.fileCalls,
          ⟨some true, relay.device.calls ++ .opened :: changes.map .changed⟩⟩) ∨
      relay.path ≠ relay.device.name ∧ (relay.start tree).1.footing =
        ⟨relay.path, relay.device.name, relay.fileCalls ++ [.opened],
          ⟨some false, relay.device.calls⟩⟩) := by
  unfold start
  split
  next device =>
    rcases open_cases relay.device relay.baudrate with
      ⟨error, calls, among, failed⟩ | ⟨opens, changes, asked⟩
    · rw [failed]
      exact .inl ⟨error, calls, among, .inl device, rfl⟩
    · obtain ⟨line, calls, same⟩ := open_eq relay.device relay.baudrate
      refine .inr ?_
      generalize relay.device.open relay.baudrate = opened at opens asked same
      obtain ⟨device', error⟩ := opened
      obtain rfl : error = none := opens
      dsimp only at same asked ⊢
      refine ⟨rfl, .inl ⟨device, changes, ?_⟩⟩
      rw [footing_readDevice]
      simp [footing, grip, same, ← asked]
  next plain =>
    cases openPlain tree relay.path with
    | error error => exact .inl ⟨error, [], by simp, .inr rfl, by rw [note_nil]⟩
    | ok input =>
        refine .inr ⟨rfl, .inr ⟨plain, ?_⟩⟩
        dsimp only
        rw [footing_settleEvents, footing_readArrivals]
        rfl

theorem grip_start (relay : Relay) (tree : Filesystem) (shut : relay.line = none) :
    (relay.start tree).1.grip.Since relay.device.calls := by
  rcases relay.start_footing tree with
    ⟨error, calls, among, _, shape⟩ | ⟨_, ⟨_, changes, footing⟩ | ⟨_, footing⟩⟩
  · rw [shape]
    simp only [grip, Grip.Since, shut, Option.map_none, Device.note]
    simp only [List.mem_cons, List.not_mem_nil, or_false] at among
    rcases among with rfl | rfl
    · exact .inl (List.append_nil _)
    · exact .inr ⟨[], rfl⟩
  · have grip : (relay.start tree).1.grip = _ := congrArg Footing.grip footing
    rw [grip]
    exact ⟨changes, rfl⟩
  · have grip : (relay.start tree).1.grip = _ := congrArg Footing.grip footing
    rw [grip]
    exact .inl rfl

def Grip.released (grip : Grip) : Grip :=
  ⟨none, grip.calls ++ if grip.onDevice = some true then [.closed] else []⟩

def Footing.released (footing : Footing) : Footing :=
  { footing with
    fileCalls := footing.fileCalls ++ if footing.grip.onDevice = some false then [.closed] else []
    grip := footing.grip.released }

theorem footing_stop (relay : Relay) : relay.stop.1.footing = relay.footing.released := by
  cases opened : relay.line with
  | none => simp [stop, footing, Footing.released, grip, Grip.released, opened]
  | some line =>
      simp only [stop, opened]
      generalize shape : writeFrames _ line.onDevice line.inHand.toList = stopped
      have kept : stopped.footing = { relay.footing with grip := ⟨none, relay.device.calls⟩ } := by
        rw [← shape, footing_writeFrames]
        rfl
      simp only [footing, grip, Footing.mk.injEq, Grip.mk.injEq] at kept
      obtain ⟨path, name, files, shut, calls⟩ := kept
      cases held : line.onDevice <;>
        simp [footing, Footing.released, grip, Grip.released, opened, held, path, name, files, shut,
          calls, Device.note]

theorem grip_stop (relay : Relay) : relay.stop.1.grip = relay.grip.released :=
  congrArg Footing.grip (footing_stop relay)

theorem Grip.Since.released {before : List Call} {grip : Grip} (since : grip.Since before) :
    Returned before grip.released.calls := by
  unfold Grip.Since at since
  unfold Grip.released
  by_cases held : grip.onDevice = some true
  · rw [if_pos held] at since ⊢
    obtain ⟨changes, asked⟩ := since
    exact .inr ⟨changes, by simp [asked]⟩
  · rw [if_neg held] at since ⊢
    rwa [List.append_nil]

end SteeringChannel.Relay
