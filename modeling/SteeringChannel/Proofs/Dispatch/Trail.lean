import SteeringChannel.Proofs.Dispatch.Outlet
import SteeringChannel.Proofs.Number.Whole
import SteeringChannel.Proofs.Text.Trim

/-!
The journal as a trail. The notes on changes of the state lead from the first state to the last
without a gap, one for each byte that made a difference; and their text alone says which states and
which command they are about.
-/

namespace SteeringChannel

def Command.Plain (command : Command) : Prop := command.kind ≠ .set → command.value = none

theorem Command.plain_ofByte (byte : UInt8) : (Command.ofByte byte).Plain := by
  unfold Command.ofByte
  split
  · exact fun _ => rfl
  · split
    · exact fun _ => rfl
    · exact fun other => absurd rfl other

theorem optionalText_some_ne_none (value : Int) :
    optionalText (some value) ≠ optionalText none := by
  intro same
  have letter : 'N' ∈ (toString value).toList := by
    rw [optionalText, optionalText] at same
    rw [same]
    decide
  exact absurd (isDigit_of_mem_toString letter) (by decide)

theorem optionalText_inj {value other : Option Int}
    (same : optionalText value = optionalText other) : value = other := by
  cases value with
  | none =>
      cases other with
      | none => rfl
      | some other => exact absurd same.symm (optionalText_some_ne_none other)
  | some value =>
      cases other with
      | none => exact absurd same (optionalText_some_ne_none value)
      | some other => exact congrArg some (eq_of_toString_eq same)

theorem space_not_mem_optionalText (value : Option Int) : ' ' ∉ (optionalText value).toList := by
  cases value with
  | none => decide
  | some value => exact fun member => absurd (isDigit_of_mem_toString member) (by decide)

namespace RuntimeState

theorem runningText_inj {state other : RuntimeState}
    (same : state.runningText = other.runningText) : state.running = other.running := by
  unfold runningText at same
  cases here : state.running <;> cases there : other.running <;> simp_all

theorem space_not_mem_runningText (state : RuntimeState) : ' ' ∉ state.runningText.toList := by
  unfold runningText
  split <;> decide

theorem text_append_inj {state other : RuntimeState} {more rest : List Char}
    (same : state.text.toList ++ ' ' :: more = other.text.toList ++ ' ' :: rest) :
    state = other ∧ more = rest := by
  have parts (state : RuntimeState) (more : List Char) : state.text.toList ++ ' ' :: more =
      "running=".toList ++ (state.runningText.toList ++ ' ' ::
        ("value=".toList ++ ((optionalText state.value).toList ++ ' ' :: more))) := by
    simp [text]
  rw [parts, parts, List.append_cancel_left_eq] at same
  obtain ⟨running, same⟩ := Text.append_cons_inj state.space_not_mem_runningText
    other.space_not_mem_runningText same
  rw [List.append_cancel_left_eq] at same
  obtain ⟨value, same⟩ := Text.append_cons_inj (space_not_mem_optionalText state.value)
    (space_not_mem_optionalText other.value) same
  refine ⟨?_, same⟩
  have running := runningText_inj (String.toList_injective running)
  have value := optionalText_inj (String.toList_injective value)
  cases state
  cases other
  exact congrArg₂ RuntimeState.mk running value

end RuntimeState

theorem Command.kind_eq_of_text_eq {command other : Command} (same : command.text = other.text) :
    command.kind = other.kind := by
  obtain ⟨kind, value⟩ := command
  obtain ⟨otherKind, otherValue⟩ := other
  have letters := congrArg (fun text : String => text.toList[2]?) same
  cases kind <;> cases otherKind <;> simp [text, CommandKind.name] at letters ⊢

theorem Command.text_inj {command other : Command} (plain : command.Plain) (also : other.Plain)
    (same : command.text = other.text) : command = other := by
  have kinds := kind_eq_of_text_eq same
  obtain ⟨kind, value⟩ := command
  obtain ⟨_, otherValue⟩ := other
  obtain rfl : kind = _ := kinds
  cases kind with
  | set =>
      have values : optionalText value = optionalText otherValue := by simpa [text] using same
      rw [optionalText_inj values]
  | _ =>
      have values : value = otherValue := (plain nofun).trans (also nofun).symm
      rw [values]

structure Change where
  before : RuntimeState
  command : Command
  after : RuntimeState
  deriving DecidableEq, Repr

namespace Change

def differs (change : Change) : Bool := change.before ≠ change.after

def record (change : Change) : Journal.Record :=
  Dispatcher.changeRecord change.before change.after change.command

theorem message_inj {change other : Change} (plain : change.command.Plain)
    (also : other.command.Plain) (same : change.record.message = other.record.message) :
    change = other := by
  have parts (change : Change) : change.record.message.toList =
      "State: ".toList ++ (change.before.text.toList ++ ' ' :: ("-> ".toList ++
        (change.after.text.toList ++ ' ' :: ('(' :: (change.command.text.toList ++ [')']))))) := by
    simp [record, Dispatcher.changeRecord]
  have same := congrArg String.toList same
  rw [parts, parts, List.append_cancel_left_eq] at same
  obtain ⟨before, same⟩ := RuntimeState.text_append_inj same
  rw [List.append_cancel_left_eq] at same
  obtain ⟨after, same⟩ := RuntimeState.text_append_inj same
  rw [List.cons.injEq, List.append_cancel_right_eq] at same
  have command := Command.text_inj plain also (String.toList_injective same.2)
  cases change
  cases other
  simp_all

theorem messages_inj {changes others : List Change}
    (plain : ∀ change ∈ changes, change.command.Plain)
    (also : ∀ change ∈ others, change.command.Plain)
    (same : changes.map (fun change => change.record.message) =
      others.map fun change => change.record.message) : changes = others := by
  induction changes generalizing others with
  | nil => exact (List.map_eq_nil_iff.mp same.symm).symm
  | cons change rest ih =>
      cases others with
      | nil => simp at same
      | cons other others =>
          rw [List.map_cons, List.map_cons, List.cons.injEq] at same
          rw [List.forall_mem_cons] at plain also
          rw [message_inj plain.1 also.1 same.1, ih plain.2 also.2 same.2]

end Change

/-- Changes that lead from one state to another. Each starts where the one before it has ended, does
what its command does, and makes a difference. -/
inductive Trail : RuntimeState → List Change → RuntimeState → Prop
  | still {state} : Trail state [] state
  | step {change changes last} : change.after = change.before.apply change.command →
      change.before ≠ change.after → Trail change.after changes last →
      Trail change.before (change :: changes) last

theorem Trail.replay {first last : RuntimeState} {changes : List Change}
    (trail : Trail first changes last) :
    (changes.map Change.command).foldl RuntimeState.apply first = last := by
  induction trail with
  | still => rfl
  | step applies _ _ ih => rw [List.map_cons, List.foldl_cons, ← applies, ih]

namespace Dispatcher

variable {σ : Type} [Outlet σ]

def snapshot (dispatcher : Dispatcher σ) (bytes : List UInt8) (count : Nat) : RuntimeState :=
  (dispatcher.dispatchBytes (bytes.take count)).1.store.state

def deeds (dispatcher : Dispatcher σ) (bytes : List UInt8) : List Change :=
  bytes.zipIdx.map fun placed =>
    ⟨dispatcher.snapshot bytes placed.2, Command.ofByte placed.1,
      dispatcher.snapshot bytes (placed.2 + 1)⟩

theorem deeds_cons (dispatcher : Dispatcher σ) (byte : UInt8) (rest : List UInt8) :
    dispatcher.deeds (byte :: rest) =
      ⟨dispatcher.store.state, Command.ofByte byte,
        dispatcher.store.state.apply (Command.ofByte byte)⟩ ::
      (dispatcher.dispatchByte byte).1.deeds rest := by
  simp only [deeds, List.zipIdx_cons', List.map_cons, List.map_map]
  rfl

theorem plain_deeds (dispatcher : Dispatcher σ) (bytes : List UInt8) :
    ∀ change ∈ dispatcher.deeds bytes, change.command.Plain := by
  intro change member
  obtain ⟨placed, _, rfl⟩ := List.mem_map.mp member
  exact Command.plain_ofByte placed.1

theorem changes_dispatchBytes [Outlet.Discreet σ] (dispatcher : Dispatcher σ)
    (bytes : List UInt8) :
    (dispatcher.dispatchBytes bytes).2.filter isChange =
      ((dispatcher.deeds bytes).filter Change.differs).map Change.record := by
  induction bytes generalizing dispatcher with
  | nil => rfl
  | cons byte rest ih =>
      have first : (dispatcher.dispatchByte byte).2.filter isChange =
          if dispatcher.store.state = dispatcher.store.state.apply (Command.ofByte byte) then []
          else [changeRecord dispatcher.store.state
            (dispatcher.store.state.apply (Command.ofByte byte)) (Command.ofByte byte)] := by
        simp only [dispatchByte, carry, changes_stateRecord, changes_passOn, List.append_nil]
        rfl
      rw [deeds_cons, dispatchBytes, List.filter_append, ih, first]
      split
      next same => rw [List.filter_cons_of_neg (by simpa [Change.differs] using same)]; rfl
      next differs => rw [List.filter_cons_of_pos (by simpa [Change.differs] using differs)]; rfl

theorem trail_deeds (dispatcher : Dispatcher σ) (bytes : List UInt8) :
    Trail dispatcher.store.state ((dispatcher.deeds bytes).filter Change.differs)
      (dispatcher.dispatchBytes bytes).1.store.state := by
  induction bytes generalizing dispatcher with
  | nil => exact .still
  | cons byte rest ih =>
      have next := ih (dispatcher.dispatchByte byte).1
      rw [deeds_cons, dispatchBytes]
      by_cases same : dispatcher.store.state =
        dispatcher.store.state.apply (Command.ofByte byte)
      · rw [List.filter_cons_of_neg (by simpa [Change.differs] using same)]
        have kept : (dispatcher.dispatchByte byte).1.store.state = dispatcher.store.state :=
          same.symm
        rw [kept] at next
        exact next
      · rw [List.filter_cons_of_pos (by simpa [Change.differs] using same)]
        exact @Trail.step ⟨_, Command.ofByte byte, _⟩ _ _ rfl same next

/-- The dispatcher's notes on changes of the state are a trail from the first state to the last one,
with one note for each byte that made a difference, in their order. Anybody who reads the texts of
the notes as changes reads just these, and gets to the last state with the commands they name. -/
theorem journal_is_trail [Outlet.Discreet σ] (dispatcher : Dispatcher σ) (bytes : List UInt8) :
    let ran := dispatcher.dispatchBytes bytes
    let changes := (dispatcher.deeds bytes).filter Change.differs
    ran.2.filter isChange = changes.map Change.record ∧
    Trail dispatcher.store.state changes ran.1.store.state ∧
    (∀ change other : Change, change.command.Plain → other.command.Plain →
      change.record.message = other.record.message → change = other) ∧
    ∀ told : List Change, (∀ change ∈ told, change.command.Plain) →
      told.map (fun change => change.record.message) =
        (ran.2.filter isChange).map Journal.Record.message →
      told = changes ∧
        (told.map Change.command).foldl RuntimeState.apply dispatcher.store.state =
          ran.1.store.state := by
  intro ran changes
  have records : ran.2.filter isChange = changes.map Change.record :=
    dispatcher.changes_dispatchBytes bytes
  have trail : Trail dispatcher.store.state changes ran.1.store.state :=
    dispatcher.trail_deeds bytes
  refine ⟨records, trail, fun _ _ => Change.message_inj, fun told plain same => ?_⟩
  rw [records, List.map_map] at same
  obtain rfl : told = changes := Change.messages_inj plain
    (fun change member => dispatcher.plain_deeds bytes change (List.mem_of_mem_filter member)) same
  exact ⟨rfl, trail.replay⟩

/-- Six bytes of which three make a difference, with an outlet that fails on one of them. -/
theorem journal_is_trail_three :
    let dispatcher : Dispatcher Recorder := ⟨{}, some { failing := [7] }⟩
    let bytes : List UInt8 := [0x45, 0x50, 0x50, 7, 7, 0x45]
    let told : List Change :=
      [⟨{}, Command.start, { running := true }⟩,
        ⟨{ running := true }, ⟨.set, some 7⟩, { running := true, value := some 7 }⟩,
        ⟨{ running := true, value := some 7 }, Command.stop, { value := some 7 }⟩]
    ((dispatcher.dispatchBytes bytes).2.filter isChange).map Journal.Record.message =
        ["State: running=False value=0 -> running=True value=0 (START)",
          "State: running=True value=0 -> running=True value=7 (SET(7))",
          "State: running=True value=7 -> running=False value=7 (STOP)"] ∧
      told = (dispatcher.deeds bytes).filter Change.differs ∧
      (dispatcher.dispatchBytes bytes).1.store.state = { value := some 7 } := by
  intro dispatcher bytes told
  have texts : ((dispatcher.dispatchBytes bytes).2.filter isChange).map Journal.Record.message =
      ["State: running=False value=0 -> running=True value=0 (START)",
        "State: running=True value=0 -> running=True value=7 (SET(7))",
        "State: running=True value=7 -> running=False value=7 (STOP)"] := by
    decide +kernel
  have plain : ∀ change ∈ told, change.command.Plain := by
    simp [told, Command.Plain, Command.start, Command.stop]
  obtain ⟨_, _, _, reading⟩ := dispatcher.journal_is_trail bytes
  obtain ⟨same, replayed⟩ := reading told plain (by rw [texts]; decide +kernel)
  exact ⟨texts, same, replayed.symm⟩

end Dispatcher
end SteeringChannel
