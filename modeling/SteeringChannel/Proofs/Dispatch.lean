import SteeringChannel.Dispatch

/-!
Bytes that are dispatched one after the other. The store is the fold of their commands, whatever the
outlet does with them.
-/

namespace SteeringChannel

theorem Store.foldl_apply (commands : List Command) (store : Store) :
    commands.foldl Store.apply store =
      ⟨commands.foldl RuntimeState.apply store.state, store.applied + commands.length⟩ := by
  induction commands generalizing store with
  | nil => rfl
  | cons command rest ih =>
      rw [List.foldl_cons, ih, List.length_cons]
      simp only [Store.apply, List.foldl_cons, Store.mk.injEq, true_and]
      omega

theorem Command.mapM_decode (bytes : List UInt8) :
    (bytes.mapM fun byte => Command.decode byte.toNat) = .ok (bytes.map Command.ofByte) := by
  induction bytes with
  | nil => rfl
  | cons byte rest ih =>
      rw [List.mapM_cons, Command.decode_byte, ih]
      rfl

namespace Dispatcher

variable {σ : Type} [Outlet σ] (dispatcher : Dispatcher σ)

theorem dispatchBytes_append (before after : List UInt8) :
    (dispatcher.dispatchBytes (before ++ after)).1 =
      ((dispatcher.dispatchBytes before).1.dispatchBytes after).1 := by
  induction before generalizing dispatcher with
  | nil => rfl
  | cons byte rest ih => exact ih (dispatcher.dispatchByte byte).1

theorem store_dispatchBytes (bytes : List UInt8) :
    (dispatcher.dispatchBytes bytes).1.store =
      (bytes.map Command.ofByte).foldl Store.apply dispatcher.store := by
  induction bytes generalizing dispatcher with
  | nil => rfl
  | cons byte rest ih => exact ih (dispatcher.dispatchByte byte).1

end Dispatcher
end SteeringChannel
