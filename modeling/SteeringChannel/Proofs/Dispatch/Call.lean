import SteeringChannel.Proofs.Dispatch

/-!
Calls of a dispatcher with any integers, one after the other. A call with an integer that is no byte
is refused and leaves the dispatcher as it was; every other call carries one command.
-/

namespace SteeringChannel

def IsByte (raw : Int) : Prop := 0 ≤ raw ∧ raw ≤ 255

instance (raw : Int) : Decidable (IsByte raw) :=
  inferInstanceAs (Decidable (0 ≤ raw ∧ raw ≤ 255))

theorem isByte_toNat (byte : UInt8) : IsByte byte.toNat := by
  have bound : byte.toNat < 256 := byte.toNat_lt
  exact ⟨by omega, by omega⟩

def raws (bytes : List UInt8) : List Int := bytes.map fun byte => byte.toNat

theorem IsByte.exists_byte {raw : Int} (within : IsByte raw) :
    ∃ byte : UInt8, (byte.toNat : Int) = raw := by
  obtain ⟨lower, upper⟩ := within
  refine ⟨UInt8.ofNat raw.toNat, ?_⟩
  rw [UInt8.toNat_ofNat_of_lt' (by simp only [UInt8.size]; omega)]
  omega

/-- The two reserved integers are bytes, so whatever is no byte falls through to the value. -/
theorem Command.decode_beyond {raw : Int} (beyond : ¬ IsByte raw) :
    Command.decode raw = .error (.outOfRange raw) := by
  have notStart : raw ≠ startByte := by
    rintro rfl
    exact beyond (by decide)
  have notStop : raw ≠ stopByte := by
    rintro rfl
    exact beyond (by decide)
  rw [Command.decode, if_neg notStart, if_neg notStop, Command.set]
  exact if_neg beyond

namespace Dispatcher

variable {σ : Type} [Outlet σ] (dispatcher : Dispatcher σ)

structure Call (σ : Type) where
  before : Dispatcher σ
  raw : Int
  answer : Except CommandError Command
  after : Dispatcher σ
  records : List Journal.Record

def call (raw : Int) : Call σ :=
  match dispatcher.dispatch raw with
  | .ok (command, next, records) => ⟨dispatcher, raw, .ok command, next, records⟩
  | .error error => ⟨dispatcher, raw, .error error, dispatcher, []⟩

def calls (dispatcher : Dispatcher σ) : List Int → List (Call σ)
  | [] => []
  | raw :: rest => dispatcher.call raw :: (dispatcher.call raw).after.calls rest

def callAll (raws : List Int) : Dispatcher σ :=
  raws.foldl (fun dispatcher raw => (dispatcher.call raw).after) dispatcher

theorem call_before (raw : Int) : (dispatcher.call raw).before = dispatcher := by
  unfold call
  split <;> rfl

theorem call_raw (raw : Int) : (dispatcher.call raw).raw = raw := by
  unfold call
  split <;> rfl

theorem call_byte (byte : UInt8) :
    dispatcher.call byte.toNat = ⟨dispatcher, byte.toNat, .ok (Command.ofByte byte),
      (dispatcher.dispatchByte byte).1, (dispatcher.dispatchByte byte).2⟩ := by
  simp only [call, dispatch_byte]

theorem call_beyond {raw : Int} (beyond : ¬ IsByte raw) :
    dispatcher.call raw = ⟨dispatcher, raw, .error (.outOfRange raw), dispatcher, []⟩ := by
  simp [call, dispatch, Command.decode_beyond beyond, Except.map]

theorem raws_calls (raws : List Int) : (dispatcher.calls raws).map Call.raw = raws := by
  induction raws generalizing dispatcher with
  | nil => rfl
  | cons raw rest ih => rw [calls, List.map_cons, call_raw, ih]

theorem callAll_append (before after : List Int) :
    dispatcher.callAll (before ++ after) = (dispatcher.callAll before).callAll after :=
  List.foldl_append

theorem calls_keep {kept : Dispatcher σ → Prop}
    (step : ∀ dispatcher raw, kept dispatcher → kept (dispatcher.call raw).after)
    (start : kept dispatcher) {raws : List Int} :
    ∀ call ∈ dispatcher.calls raws,
      call = call.before.call call.raw ∧ kept call.before ∧ kept call.after := by
  induction raws generalizing dispatcher with
  | nil => simp [calls]
  | cons raw rest ih =>
      have next := step dispatcher raw start
      refine List.forall_mem_cons.mpr ⟨⟨?_, ?_, next⟩, ih _ next⟩
      · rw [call_before, call_raw]
      · rwa [call_before]

end Dispatcher
end SteeringChannel
