import SteeringChannel.Proofs.Dispatch.Call
import SteeringChannel.Relay

/-!
What an outlet cannot do. Answers, stores and notes on changes of the state are those of a run without
any outlet, whichever calls the outlet fails; and the outlet is given each byte once, in order, after
the byte has been applied.
-/

namespace SteeringChannel

open Journal (Record Failure)

/-- An outlet that writes nothing under the name of the dispatcher. -/
class Outlet.Discreet (σ : Type) [Outlet σ] : Prop where
  source : ∀ (outlet : σ) (raw : Int), ∀ record ∈ (Outlet.forward outlet raw).records,
    record.source ≠ Journal.Source.dispatcher

def Outlet.feed {σ : Type} [Outlet σ] (outlet : σ) (raws : List Int) : σ :=
  raws.foldl (fun outlet raw => (Outlet.forward outlet raw).next) outlet

theorem Outlet.Discreet.of_silent {σ : Type} [Outlet σ]
    (silent : ∀ (outlet : σ) (raw : Int), (Outlet.forward outlet raw).records = []) :
    Outlet.Discreet σ where
  source outlet raw record member := by
    rw [silent] at member
    exact nomatch member

instance : Outlet.Discreet Recorder :=
  .of_silent fun outlet raw => by
    change (outlet.forward raw).records = []
    unfold Recorder.forward
    split <;> rfl

instance : Outlet.Discreet Relay where
  source outlet raw record member := by
    have source : ∀ record ∈ (outlet.forward raw).records,
        record.source = Journal.Source.relay := by
      -- A relay notes what it drops: when it is not open, and when its queue is full.
      unfold Relay.forward
      split
      · exact List.forall_mem_singleton.mpr rfl
      · split
        · exact nofun
        · split
          · exact List.forall_mem_singleton.mpr rfl
          · exact nofun
    rw [source record member]
    decide

structure Faulty where
  fails : Nat → Option Failure
  calls : List Int := []
  received : List Int := []

namespace Faulty

def forward (faulty : Faulty) (raw : Int) : Forwarding Faulty :=
  match faulty.fails faulty.calls.length with
  | some failure =>
      { next := { faulty with calls := faulty.calls ++ [raw] }, failure := some failure }
  | none =>
      { next := { faulty with
          calls := faulty.calls ++ [raw], received := faulty.received ++ [raw] } }

instance : Outlet Faulty := ⟨Faulty.forward⟩

instance : Outlet.Discreet Faulty :=
  .of_silent fun faulty raw => by
    change (faulty.forward raw).records = []
    unfold Faulty.forward
    split <;> rfl

def kept (fails : Nat → Option Failure) (position : Nat) (raws : List Int) : List Int :=
  ((raws.zipIdx position).filter fun placed => (fails placed.2).isNone).map Prod.fst

theorem kept_cons (fails : Nat → Option Failure) (position : Nat) (raw : Int) (rest : List Int) :
    kept fails position (raw :: rest) =
      (if (fails position).isNone then [raw] else []) ++ kept fails (position + 1) rest := by
  by_cases working : (fails position).isNone = true <;>
    simp [kept, List.zipIdx_cons, working]

theorem feed_eq (faulty : Faulty) (raws : List Int) :
    Outlet.feed faulty raws =
      { faulty with
        calls := faulty.calls ++ raws
        received := faulty.received ++ kept faulty.fails faulty.calls.length raws } := by
  induction raws generalizing faulty with
  | nil => simp [Outlet.feed, kept]
  | cons raw rest ih =>
      have next : Outlet.feed faulty (raw :: rest) =
        Outlet.feed (faulty.forward raw).next rest := rfl
      rw [next, ih, kept_cons]
      unfold forward
      split
      next failing => simp [failing]
      next working => simp [working]

end Faulty

structure Effect where
  answer : Except CommandError Command
  store : Store
  changes : List Record

def isChange (record : Record) : Bool :=
  record.source == Journal.Source.dispatcher && record.level == Journal.info

def Store.effect (store : Store) (raw : Int) : Effect :=
  match Command.decode raw with
  | .error error => ⟨.error error, store, []⟩
  | .ok command =>
      ⟨.ok command, store.apply command,
        if store.state = (store.apply command).state then []
        else [Dispatcher.changeRecord store.state (store.apply command).state command]⟩

def Store.effects (store : Store) : List Int → List Effect
  | [] => []
  | raw :: rest => store.effect raw :: (store.effect raw).store.effects rest

namespace Dispatcher

variable {σ τ : Type} [Outlet σ] [Outlet τ]

def Call.effect (call : Call σ) : Effect :=
  ⟨call.answer, call.after.store, call.records.filter isChange⟩

def Call.AppliesFirst (call : Call σ) : Prop :=
  ∃ command, call.answer = .ok command ∧
    call.after.store = call.before.store.apply command ∧
    call.after.outlet = (passOn call.raw call.before.outlet).1 ∧
    call.records =
      stateRecord call.before.store.state call.after.store.state command ::
        (passOn call.raw call.before.outlet).2

theorem changes_stateRecord (before after : RuntimeState) (command : Command)
    (records : List Record) :
    (stateRecord before after command :: records).filter isChange =
      (if before = after then [] else [changeRecord before after command]) ++
        records.filter isChange := by
  unfold stateRecord
  split
  · exact List.filter_cons_of_neg (by simp [isChange, unchangedRecord, Journal.debug, Journal.info])
  · exact List.filter_cons_of_pos (by simp [isChange, changeRecord])

theorem changes_passOn [Outlet.Discreet σ] (raw : Int) (outlet : Option σ) :
    (passOn raw outlet).2.filter isChange = [] := by
  cases outlet with
  | none => rfl
  | some outlet =>
      simp only [passOn, List.filter_append, List.append_eq_nil_iff]
      constructor
      · refine List.filter_eq_nil_iff.mpr fun record member => ?_
        simp [isChange, Outlet.Discreet.source outlet raw record member]
      · cases (Outlet.forward outlet raw).failure with
        | none => rfl
        | some failure =>
            refine List.filter_cons_of_neg ?_
            simp [isChange, failureRecord, Journal.error, Journal.info]

theorem effect_call [Outlet.Discreet σ] (dispatcher : Dispatcher σ) (raw : Int) :
    (dispatcher.call raw).effect = dispatcher.store.effect raw := by
  cases reads : Command.decode raw with
  | error error => simp [call, dispatch, Store.effect, reads, Except.map, Call.effect]
  | ok command =>
      simp [call, dispatch, Store.effect, reads, Except.map, Call.effect, carry,
        changes_stateRecord, changes_passOn]

theorem effects_calls [Outlet.Discreet σ] (dispatcher : Dispatcher σ) (raws : List Int) :
    (dispatcher.calls raws).map Call.effect = dispatcher.store.effects raws := by
  induction raws generalizing dispatcher with
  | nil => rfl
  | cons raw rest ih =>
      have effect := effect_call dispatcher raw
      have store : (dispatcher.call raw).after.store = (dispatcher.store.effect raw).store :=
        congrArg Effect.store effect
      -- What is left of the dispatcher is its store: the outlet is gone from the right-hand side.
      rw [calls, List.map_cons, ih, effect, store, Store.effects]

theorem appliesFirst_calls (dispatcher : Dispatcher σ) (bytes : List UInt8) :
    ∀ call ∈ dispatcher.calls (raws bytes), call.AppliesFirst := by
  induction bytes generalizing dispatcher with
  | nil => simp [raws, calls]
  | cons byte rest ih =>
      have first : (dispatcher.call byte.toNat).AppliesFirst := by
        rw [call_byte]
        exact ⟨Command.ofByte byte, rfl, rfl, rfl, rfl⟩
      exact List.forall_mem_cons.mpr ⟨first, ih _⟩

theorem answers_calls (dispatcher : Dispatcher σ) (bytes : List UInt8) :
    (dispatcher.calls (raws bytes)).map Call.answer =
      bytes.map fun byte => .ok (Command.ofByte byte) := by
  induction bytes generalizing dispatcher with
  | nil => rfl
  | cons byte rest ih =>
      have first : (dispatcher.call byte.toNat).answer = .ok (Command.ofByte byte) := by
        rw [call_byte]
      rw [List.map_cons, ← first, ← ih (dispatcher.call byte.toNat).after]
      rfl

theorem dispatchBytes_eq (dispatcher : Dispatcher σ) (bytes : List UInt8) :
    dispatcher.dispatchBytes bytes =
      (dispatcher.callAll (raws bytes),
        (dispatcher.calls (raws bytes)).flatMap Call.records) := by
  induction bytes generalizing dispatcher with
  | nil => rfl
  | cons byte rest ih =>
      have next : (dispatcher.call byte.toNat).after = (dispatcher.dispatchByte byte).1 := by
        rw [call_byte]
      have records : (dispatcher.call byte.toNat).records = (dispatcher.dispatchByte byte).2 := by
        rw [call_byte]
      rw [dispatchBytes, ih, ← next, ← records]
      rfl

theorem outlet_callAll (dispatcher : Dispatcher σ) (bytes : List UInt8) :
    (dispatcher.callAll (raws bytes)).outlet =
      dispatcher.outlet.map fun outlet => Outlet.feed outlet (raws bytes) := by
  induction bytes generalizing dispatcher with
  | nil =>
      change dispatcher.outlet = dispatcher.outlet.map id
      rw [Option.map_id, id]
  | cons byte rest ih =>
      have next : (dispatcher.call byte.toNat).after.outlet =
          (passOn (byte.toNat : Int) dispatcher.outlet).1 := by
        rw [call_byte]
        rfl
      have fed := ih (dispatcher.call byte.toNat).after
      rw [next] at fed
      cases given : dispatcher.outlet with
      | none =>
          rw [given] at fed
          exact fed
      | some outlet =>
          rw [given] at fed
          exact fed

/-- Two dispatchers that differ in their outlets alone answer the same to the same bytes, never with
an error, and have the same stores and the same notes on changes all along. The outlet is called once
for each byte, in order, after the byte has been applied; one that fails on some of the calls has
received the other bytes. -/
theorem outlets_unseen [Outlet.Discreet σ] [Outlet.Discreet τ] (store : Store)
    (first : Option σ) (second : Option τ) (bytes : List UInt8) :
    let dispatcher : Dispatcher σ := ⟨store, first⟩
    let other : Dispatcher τ := ⟨store, second⟩
    (dispatcher.calls (raws bytes)).map Call.effect =
        (other.calls (raws bytes)).map Call.effect ∧
      (dispatcher.calls (raws bytes)).map Call.answer =
        bytes.map (fun byte => .ok (Command.ofByte byte)) ∧
      (∀ call ∈ dispatcher.calls (raws bytes), call.AppliesFirst) ∧
      dispatcher.dispatchBytes bytes =
        (dispatcher.callAll (raws bytes),
          (dispatcher.calls (raws bytes)).flatMap Call.records) ∧
      (dispatcher.callAll (raws bytes)).outlet =
        first.map (fun outlet => Outlet.feed outlet (raws bytes)) ∧
      ∀ fails : Nat → Option Failure,
        (callAll (⟨store, some ⟨fails, [], []⟩⟩ : Dispatcher Faulty) (raws bytes)).outlet =
          some ⟨fails, raws bytes, Faulty.kept fails 0 (raws bytes)⟩ := by
  intro dispatcher other
  refine ⟨?_, dispatcher.answers_calls bytes, dispatcher.appliesFirst_calls bytes,
    dispatcher.dispatchBytes_eq bytes, dispatcher.outlet_callAll bytes, fun fails => ?_⟩
  · rw [effects_calls, effects_calls]
  · rw [outlet_callAll, Option.map_some, Faulty.feed_eq]
    rfl

/-- A relay whose queue is full, and an outlet that fails on every other call. -/
theorem outlets_unseen_full_relay :
    let full : Relay :=
      { path := "dev0", queueSize := 1, device := { held := true }
        line := some { inHand := some 1, queue := [2] } }
    let fails : Nat → Option Failure := fun index =>
      if index % 2 = 0 then some ⟨"OSError", "device gone"⟩ else none
    let bytes : List UInt8 := [0x50, 7, 7, 0x45]
    let first : Dispatcher Relay := ⟨{}, some full⟩
    let second : Dispatcher Faulty := ⟨{}, some ⟨fails, [], []⟩⟩
    (first.calls (raws bytes)).map Call.effect = (second.calls (raws bytes)).map Call.effect ∧
      ((first.calls (raws bytes)).flatMap Call.records).length = 8 ∧
      (first.callAll (raws bytes)).outlet = some full ∧
      (second.callAll (raws bytes)).outlet = some ⟨fails, [0x50, 7, 7, 0x45], [7, 0x45]⟩ := by
  intro full fails bytes first second
  obtain ⟨effects, _, _, whole, outlet, faulty⟩ :=
    outlets_unseen {} (some full) (some ⟨fails, [], []⟩ : Option Faulty) bytes
  refine ⟨effects, ?_, outlet, faulty fails⟩
  have records : (first.dispatchBytes bytes).2 =
      (first.calls (raws bytes)).flatMap Call.records := congrArg Prod.snd whole
  rw [← records]
  rfl

end Dispatcher
end SteeringChannel
