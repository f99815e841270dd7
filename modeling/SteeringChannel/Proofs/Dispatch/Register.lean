import Mathlib.Data.List.Induction
import SteeringChannel.Proofs.Dispatch.Call

/-!
The two registers of the running state. Whatever integers are dispatched, the state can be read off
the last of them: the last reserved byte says whether the program runs, the last other byte is the
value, and integers that are no bytes count for nothing.
-/

namespace SteeringChannel

def isReserved (raw : Int) : Bool := raw == startByte || raw == stopByte

def isPlain (raw : Int) : Bool := decide (IsByte raw) && !isReserved raw

/-- The state after these integers, read from their end. -/
def RuntimeState.settle (state : RuntimeState) (raws : List Int) : RuntimeState where
  running := ((raws.filter isReserved).getLast?.map (· == startByte)).getD state.running
  value := (raws.filter isPlain).getLast?.or state.value

namespace RuntimeState

variable (state : RuntimeState) (earlier : List Int)

theorem isByte_of_isReserved {raw : Int} (reserved : isReserved raw = true) : IsByte raw := by
  simp only [isReserved, Bool.or_eq_true, beq_iff_eq] at reserved
  rcases reserved with rfl | rfl <;> decide

theorem settle_reserved {raw : Int} (reserved : isReserved raw = true) :
    state.settle (earlier ++ [raw]) =
      { state.settle earlier with running := raw == startByte } := by
  simp [settle, isPlain, List.filter_append, reserved]

theorem settle_plain {raw : Int} (within : IsByte raw) (free : isReserved raw = false) :
    state.settle (earlier ++ [raw]) = { state.settle earlier with value := some raw } := by
  simp [settle, isPlain, List.filter_append, within, free]

theorem settle_beyond {raw : Int} (beyond : ¬ IsByte raw) :
    state.settle (earlier ++ [raw]) = state.settle earlier := by
  have free : isReserved raw = false := by
    rw [Bool.eq_false_iff]
    exact fun reserved => beyond (isByte_of_isReserved reserved)
  simp [settle, isPlain, List.filter_append, beyond, free]

theorem apply_ofByte (byte : UInt8) :
    state.apply (Command.ofByte byte) =
      if isReserved byte.toNat then { state with running := (byte.toNat : Int) == startByte }
      else { state with value := some (byte.toNat : Int) } := by
  unfold Command.ofByte isReserved
  by_cases starts : (byte.toNat : Int) = startByte
  · simp [starts, apply, Command.start]
  · by_cases stops : (byte.toNat : Int) = stopByte
    · simp [stops, apply, Command.stop, startByte, stopByte]
    · simp [starts, stops, apply]

theorem settle_byte (byte : UInt8) :
    state.settle (earlier ++ [(byte.toNat : Int)]) =
      (state.settle earlier).apply (Command.ofByte byte) := by
  rw [apply_ofByte]
  split
  next reserved => exact state.settle_reserved earlier reserved
  next free => exact state.settle_plain earlier (isByte_toNat byte) (Bool.eq_false_iff.mpr free)

end RuntimeState

namespace Dispatcher

variable {σ : Type} [Outlet σ] (dispatcher : Dispatcher σ)

theorem store_call (byte : UInt8) :
    (dispatcher.call byte.toNat).after.store = dispatcher.store.apply (Command.ofByte byte) := by
  rw [call_byte]
  rfl

theorem store_callAll (raws : List Int) :
    (dispatcher.callAll raws).store =
      ⟨dispatcher.store.state.settle raws,
        dispatcher.store.applied + (raws.filter fun raw => IsByte raw).length⟩ := by
  induction raws using List.reverseRecOn with
  | nil => rfl
  | append_singleton earlier raw ih =>
      have last : dispatcher.callAll (earlier ++ [raw]) =
        ((dispatcher.callAll earlier).call raw).after := dispatcher.callAll_append earlier [raw]
      rw [last]
      by_cases within : IsByte raw
      · obtain ⟨byte, rfl⟩ := within.exists_byte
        rw [store_call, ih, RuntimeState.settle_byte]
        simp [Store.apply, List.filter_append, within, Nat.add_assoc]
      · rw [call_beyond _ within, ih, RuntimeState.settle_beyond _ _ within]
        simp [List.filter_append, within]

def HoldsByte (dispatcher : Dispatcher σ) : Prop :=
  ∃ value, dispatcher.store.state.value = some value ∧ IsByte value

theorem holdsByte_call (raw : Int) (holds : dispatcher.HoldsByte) :
    (dispatcher.call raw).after.HoldsByte := by
  by_cases within : IsByte raw
  · obtain ⟨byte, rfl⟩ := within.exists_byte
    simp only [HoldsByte, store_call, Store.apply, RuntimeState.apply_ofByte]
    split
    · exact holds
    · exact ⟨byte.toNat, rfl, within⟩
  · rwa [call_beyond _ within]

theorem refused_iff (raw : Int) :
    (∃ error, (dispatcher.call raw).answer = .error error) ↔ ¬ IsByte raw := by
  constructor
  · rintro ⟨error, refused⟩ within
    obtain ⟨byte, rfl⟩ := within.exists_byte
    rw [call_byte] at refused
    exact nomatch refused
  · intro beyond
    exact ⟨.outOfRange raw, by rw [call_beyond _ beyond]⟩

/-- Whatever integers are dispatched, those that are no bytes are refused without a trace, and the
others leave the state and the count that can be read off their list. -/
theorem settles_on_last {initial : Int} (value : dispatcher.store.state.value = some initial)
    (within : IsByte initial) (raws : List Int) :
    (dispatcher.calls raws).map Call.raw = raws ∧
      (∀ call ∈ dispatcher.calls raws,
        ((∃ error, call.answer = .error error) ↔ ¬ IsByte call.raw) ∧
        (¬ IsByte call.raw →
          call.answer = .error (.outOfRange call.raw) ∧ call.after = call.before ∧
            call.records = []) ∧
        call.after.HoldsByte) ∧
      (dispatcher.callAll raws).store =
        ⟨dispatcher.store.state.settle raws,
          dispatcher.store.applied + (raws.filter fun raw => IsByte raw).length⟩ := by
  refine ⟨dispatcher.raws_calls raws, ?_, dispatcher.store_callAll raws⟩
  intro call member
  have kept := dispatcher.calls_keep holdsByte_call ⟨initial, value, within⟩ call member
  have shape : call = call.before.call call.raw := kept.1
  refine ⟨?_, ?_, kept.2.2⟩
  · have refused := call.before.refused_iff call.raw
    rwa [← shape] at refused
  · intro beyond
    rw [call.before.call_beyond beyond] at shape
    rw [shape]
    exact ⟨rfl, rfl, rfl⟩

/-- Reserved bytes, plain ones and integers far out of range, given to an outlet that keeps them. -/
theorem settles_on_last_mixed :
    let dispatcher : Dispatcher Recorder := ⟨⟨{ value := some 9 }, 3⟩, some {}⟩
    let raws : List Int := [0x50, 256, 7, -1, 0x45, 100000000000000000000, 200, 0x50, -0x45]
    dispatcher.store.state.value = some 9 ∧ IsByte 9 ∧
      (dispatcher.callAll raws).store = ⟨{ running := true, value := some 200 }, 8⟩ ∧
      (dispatcher.callAll raws).outlet = some { received := [0x50, 7, 0x45, 200, 0x50] } := by
  intro dispatcher raws
  obtain ⟨_, _, store⟩ := dispatcher.settles_on_last rfl (by decide : IsByte 9) raws
  refine ⟨rfl, by decide, ?_, by decide⟩
  rw [store]
  decide

end Dispatcher
end SteeringChannel
