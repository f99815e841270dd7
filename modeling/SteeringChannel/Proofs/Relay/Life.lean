import Mathlib.Data.List.Induction
import SteeringChannel.Proofs.Relay.Calls
import SteeringChannel.Proofs.Relay.Delivery
import SteeringChannel.Proofs.Relay.Renewal

/-!
One life after another. A relay is open from a start that succeeds to the next stop. What a start
opens is closed when that start fails or by that stop, and nothing else is ever closed; between two
lives the relay is as if it were new.
-/

namespace SteeringChannel.Relay

inductive Deed where
  | act (act : Act)
  | refit (failure : Option Int) (line : Terminal.Line)
  deriving DecidableEq, Repr

namespace Deed

def starts : Deed → Bool
  | .act (.start _) => true
  | _ => false

def stops : Deed → Bool
  | .act .stop => true
  | _ => false

end Deed

def refit (relay : Relay) (failure : Option Int) (line : Terminal.Line) : Relay :=
  { relay with device := { relay.device with openFailure := failure, line := line } }

def does (relay : Relay) : Deed → Relay
  | .act act => relay.perform act
  | .refit failure line => relay.refit failure line

def live (relay : Relay) (deeds : List Deed) : Relay := deeds.foldl does relay

def Orderly (relay : Relay) : List Deed → Prop
  | [] => True
  | deed :: rest => (deed.starts = true → relay.isOpen = false) ∧ (relay.does deed).Orderly rest

instance decidableOrderly (relay : Relay) : (deeds : List Deed) → Decidable (relay.Orderly deeds)
  | [] => inferInstanceAs (Decidable True)
  | deed :: rest =>
      have := decidableOrderly (relay.does deed) rest
      inferInstanceAs (Decidable (_ ∧ _))

variable {relay : Relay} {deeds : List Deed} {deed : Deed}

theorem live_append (relay : Relay) (before after : List Deed) :
    relay.live (before ++ after) = (relay.live before).live after :=
  List.foldl_append

theorem live_concat (relay : Relay) (deeds : List Deed) (deed : Deed) :
    relay.live (deeds ++ [deed]) = (relay.live deeds).does deed :=
  live_append relay deeds [deed]

theorem orderly_concat :
    relay.Orderly (deeds ++ [deed]) ↔
      relay.Orderly deeds ∧ (deed.starts = true → (relay.live deeds).isOpen = false) := by
  induction deeds generalizing relay with
  | nil => simp [Orderly, live]
  | cons first rest ih =>
      simp only [List.cons_append, Orderly, ih, and_assoc]
      rfl

theorem live_after (relay : Relay) (past : Past) (deeds : List Deed) :
    (relay.after past).live deeds = (relay.live deeds).after past := by
  induction deeds generalizing relay with
  | nil => rfl
  | cons first rest ih =>
      have here : (relay.after past).does first = (relay.does first).after past := by
        cases first with
        | act act => exact perform_after relay past act
        | refit failure line => rfl
      simp only [live, List.foldl_cons, here]
      exact ih (relay.does first)

/-- What was asked of that to which a relay's path leads, and what elsewhere: of a plain file if it
leads to the device, and of the device if it does not. -/
structure Account where
  calls : List Call
  elsewhere : List Call
  deriving DecidableEq, Repr

namespace Account

def note (account : Account) (calls : List Call) : Account :=
  { account with calls := account.calls ++ calls }

@[simp] theorem note_nil (account : Account) : account.note [] = account := by simp [note]

@[simp] theorem note_note (account : Account) (first second : List Call) :
    (account.note first).note second = account.note (first ++ second) := by
  simp [note]

end Account

namespace Footing

def account (footing : Footing) : Account :=
  if footing.path = footing.name then ⟨footing.grip.calls, footing.fileCalls⟩
  else ⟨footing.fileCalls, footing.grip.calls⟩

def Placed (footing : Footing) : Prop :=
  ∀ held, footing.grip.onDevice = some held → held = decide (footing.path = footing.name)

theorem Placed.released {footing : Footing} (placed : footing.Placed) :
    footing.released.account =
      footing.account.note (if footing.grip.onDevice.isSome then [.closed] else []) := by
  cases held : footing.grip.onDevice with
  | none => simp [Footing.released, account, Grip.released, held]
  | some onDevice =>
      obtain rfl := placed onDevice held
      by_cases device : footing.path = footing.name <;>
        simp [Footing.released, account, Account.note, Grip.released, held, device]

end Footing

def account (relay : Relay) : Account := relay.footing.account

theorem isOpen_eq (relay : Relay) : relay.isOpen = relay.footing.grip.onDevice.isSome := by
  simp [isOpen, footing, grip]

theorem Footing.Placed.of_closed (closed : relay.isOpen = false) : relay.footing.Placed := by
  intro held holds
  rw [isOpen_eq, holds] at closed
  exact nomatch closed

theorem footing_does (starts : deed.starts = false) (stops : deed.stops = false) :
    (relay.does deed).footing = relay.footing := by
  cases deed with
  | refit failure line => rfl
  | act act =>
      cases act with
      | start tree => exact nomatch starts
      | stop => exact nomatch stops
      | forward raw => exact footing_forward relay raw
      | consume => exact footing_consume relay
      | undergo happening => exact footing_undergo relay happening

theorem account_start (relay : Relay) (tree : Filesystem) :
    (∃ error, ∃ asked ∈ [[], [.opened, .closed]],
      relay.start tree = ({ relay with device := relay.device.note asked }, [], some error) ∧
        (relay.start tree).1.account = relay.account.note asked) ∨
    (relay.start tree).2.2 = none ∧ (relay.start tree).1.isOpen = true ∧
      (relay.start tree).1.footing.Placed ∧ ∃ changes : List Terminal.Change,
        (relay.start tree).1.account =
          relay.account.note (.opened :: changes.map .changed) := by
  simp only [account, isOpen_eq]
  rcases relay.start_footing tree with
    ⟨error, asked, among, leads, failed⟩ | ⟨done, ⟨device, changes, footing⟩ | ⟨plain, footing⟩⟩
  · refine .inl ⟨error, asked, among, failed, ?_⟩
    rw [failed]
    by_cases device : relay.path = relay.device.name
    · simp [Footing.account, Account.note, Relay.footing, grip, Device.note, device]
    · -- Nothing can fail once a plain file is open, so none has been opened.
      obtain rfl := leads.resolve_left device
      rw [Relay.note_nil, Account.note_nil]
  · rw [footing]
    refine .inr ⟨congrArg Prod.snd done, rfl, ?_, changes, ?_⟩
    · rintro held ⟨⟩
      exact (decide_eq_true device).symm
    · simp [Footing.account, Account.note, Relay.footing, grip, device]
  · rw [footing]
    refine .inr ⟨congrArg Prod.snd done, rfl, ?_, [], ?_⟩
    · rintro held ⟨⟩
      exact (decide_eq_false plain).symm
    · simp [Footing.account, Account.note, Relay.footing, grip, plain]

theorem account_stop (placed : relay.footing.Placed) :
    relay.stop.1.account = relay.account.note (if relay.isOpen then [.closed] else []) := by
  rw [account, footing_stop, placed.released, isOpen_eq]
  rfl

theorem isOpen_stop (relay : Relay) : relay.stop.1.isOpen = false := by
  rw [isOpen_eq, footing_stop]
  rfl

/-- The lives a course has brought, each from what it opened to the close of it, and what the last
one holds if it has not ended. A life ends with the start that has failed to complete it or with the
next stop. -/
inductive Ledger (relay : Relay) : List Deed → List (List Call) → List Call → Prop
  | begin : Ledger relay [] [] []
  | refused {deeds lives tree error} (so : Ledger relay deeds lives [])
      (fails : ((relay.live deeds).start tree).2.2 = some error) :
      Ledger relay (deeds ++ [.act (.start tree)]) lives []
  | ruined {deeds lives tree error} (so : Ledger relay deeds lives [])
      (fails : ((relay.live deeds).start tree).2.2 = some error) :
      Ledger relay (deeds ++ [.act (.start tree)]) (lives ++ [[.opened, .closed]]) []
  | opened {deeds lives tree} (changes : List Terminal.Change) (so : Ledger relay deeds lives [])
      (begun : ((relay.live deeds).start tree).2.2 = none) :
      Ledger relay (deeds ++ [.act (.start tree)]) lives (.opened :: changes.map .changed)
  | closed {deeds lives held} (so : Ledger relay deeds lives held) (holds : held ≠ []) :
      Ledger relay (deeds ++ [.act .stop]) (lives ++ [held ++ [.closed]]) []
  | idle {deeds lives held deed} (so : Ledger relay deeds lives held) (starts : deed.starts = false)
      (stops : deed.stops = true → held = []) : Ledger relay (deeds ++ [deed]) lives held

def EndsStarted (relay : Relay) (deeds : List Deed) : Prop :=
  ∃ before tree after, deeds = before ++ .act (.start tree) :: after ∧
    ((relay.live before).start tree).2.2 = none ∧
    ∀ deed ∈ after, deed.starts = false ∧ deed.stops = false

theorem endsStarted_concat : relay.EndsStarted (deeds ++ [deed]) ↔
    (∃ tree, deed = .act (.start tree) ∧ ((relay.live deeds).start tree).2.2 = none) ∨
      relay.EndsStarted deeds ∧ deed.starts = false ∧ deed.stops = false := by
  constructor
  · rintro ⟨before, tree, after, shape, begun, rest⟩
    cases after using List.reverseRecOn with
    | nil =>
        obtain ⟨rfl, last⟩ := List.append_inj' shape rfl
        exact .inl ⟨tree, by simpa using last, begun⟩
    | append_singleton after last =>
        have shape' : deeds ++ [deed] = (before ++ .act (.start tree) :: after) ++ [last] := by
          simpa using shape
        obtain ⟨rfl, same⟩ := List.append_inj' shape' rfl
        obtain rfl : deed = last := by simpa using same
        refine .inr ⟨⟨before, tree, after, rfl, begun, fun deed among => ?_⟩, ?_⟩
        · exact rest deed (List.mem_append_left _ among)
        · exact rest deed (by simp)
  · rintro (⟨tree, rfl, begun⟩ | ⟨⟨before, tree, after, rfl, begun, rest⟩, last⟩)
    · exact ⟨deeds, tree, [], rfl, begun, by simp⟩
    · refine ⟨before, tree, after ++ [deed], by simp, begun, fun other among => ?_⟩
      rcases List.mem_append.mp among with among | among
      · exact rest other among
      · obtain rfl := List.mem_singleton.mp among
        exact last

namespace Ledger

variable {lives : List (List Call)} {held : List Call}

theorem holds_iff (ledger : relay.Ledger deeds lives held) :
    held ≠ [] ↔ relay.EndsStarted deeds := by
  induction ledger with
  | begin => simp [EndsStarted]
  | refused so fails ih => simp [endsStarted_concat, fails, Deed.starts]
  | ruined so fails ih => simp [endsStarted_concat, fails, Deed.starts]
  | opened changes so begun ih => simp [endsStarted_concat, begun]
  | closed so holds ih => simp [endsStarted_concat, Deed.stops]
  | @idle deeds lives held deed so starts stops ih =>
      have other : ∀ tree, deed ≠ .act (.start tree) := by
        rintro tree rfl
        exact nomatch starts
      cases last : deed.stops with
      | true => simp [endsStarted_concat, stops last, other, last]
      | false => simp [endsStarted_concat, ih, other, starts, last]

theorem lives_eq (ledger : relay.Ledger deeds lives held) :
    (∀ life ∈ lives, ∃ changes : List Terminal.Change,
      life = .opened :: changes.map .changed ++ [.closed]) ∧
    (held ≠ [] → ∃ changes : List Terminal.Change, held = .opened :: changes.map .changed) := by
  induction ledger with
  | begin => simp
  | refused so fails ih => exact ⟨ih.1, by simp⟩
  | ruined so fails ih =>
      refine ⟨fun life among => ?_, by simp⟩
      rcases List.mem_append.mp among with among | among
      · exact ih.1 life among
      · obtain rfl := List.mem_singleton.mp among
        exact ⟨[], rfl⟩
  | opened changes so begun ih => exact ⟨ih.1, fun _ => ⟨changes, rfl⟩⟩
  | closed so holds ih =>
      refine ⟨fun life among => ?_, by simp⟩
      rcases List.mem_append.mp among with among | among
      · exact ih.1 life among
      · obtain rfl := List.mem_singleton.mp among
        obtain ⟨changes, rfl⟩ := ih.2 holds
        exact ⟨changes, rfl⟩
  | idle so starts stops ih => exact ih

end Ledger

structure Course (relay : Relay) (deeds : List Deed) : Prop where
  placed : (relay.live deeds).footing.Placed
  shut : (relay.live deeds).isOpen = false → (relay.live deeds).wayIn.Shut
  ledger : ∃ lives held, relay.Ledger deeds lives held ∧
    (relay.live deeds).account = relay.account.note (lives.flatten ++ held) ∧
    ((relay.live deeds).isOpen = true ↔ held ≠ [])

namespace Course

theorem begin (shut : relay.wayIn.Shut) : relay.Course [] := by
  have closed : relay.isOpen = false := by simpa [isOpen, wayIn] using shut.line
  refine ⟨.of_closed closed, fun _ => shut, [], [], .begin, ?_, ?_⟩
  · simp [live]
  · simpa [live] using closed

variable (course : relay.Course deeds)
include course

theorem start (tree : Filesystem) (closed : (relay.live deeds).isOpen = false) :
    relay.Course (deeds ++ [.act (.start tree)]) := by
  obtain ⟨lives, held, ledger, account, holds⟩ := course.ledger
  obtain rfl : held = [] := by simpa [closed] using holds
  have next : relay.live (deeds ++ [.act (.start tree)]) = ((relay.live deeds).start tree).1 :=
    live_concat relay deeds _
  rcases (relay.live deeds).account_start tree with
    ⟨error, asked, among, failed, asks⟩ | ⟨begun, opens, placed, changes, asks⟩
  · have still : (relay.live (deeds ++ [.act (.start tree)])).isOpen = false := by
      rw [next, failed]
      exact closed
    refine ⟨.of_closed still, fun _ => ?shut, ?ledger⟩
    case shut =>
      rw [next, failed]
      exact course.shut closed
    case ledger =>
      have fails : ((relay.live deeds).start tree).2.2 = some error := by rw [failed]
      simp only [List.mem_cons, List.not_mem_nil, or_false] at among
      rcases among with rfl | rfl
      · exact ⟨lives, [], .refused ledger fails, by simp [next, asks, account], by simp [still]⟩
      · exact ⟨_, [], .ruined ledger fails, by simp [next, asks, account], by simp [still]⟩
  · refine ⟨next ▸ placed, fun shut => ?_, lives, _, .opened changes ledger begun, ?_, ?_⟩
    · rw [next, opens] at shut
      exact nomatch shut
    · simp [next, asks, account]
    · simp [next, opens]

theorem stop : relay.Course (deeds ++ [.act .stop]) := by
  obtain ⟨lives, held, ledger, account, holds⟩ := course.ledger
  have next : relay.live (deeds ++ [.act .stop]) = (relay.live deeds).stop.1 :=
    live_concat relay deeds _
  have closed : (relay.live (deeds ++ [.act .stop])).isOpen = false := next ▸ isOpen_stop _
  refine ⟨.of_closed closed, fun _ => ?shut, ?ledger⟩
  case shut =>
    rw [next, wayIn_stop]
    exact ⟨rfl, rfl⟩
  case ledger =>
    have asks := account_stop course.placed
    cases opened : (relay.live deeds).isOpen with
    | true =>
        exact ⟨_, [], .closed ledger (holds.mp opened), by simp [next, asks, account, opened],
          by simp [closed]⟩
    | false =>
        obtain rfl : held = [] := by simpa [opened] using holds
        exact ⟨lives, [], .idle ledger rfl fun _ => rfl, by simp [next, asks, account, opened],
          by simp [closed]⟩

theorem idle (starts : deed.starts = false) (stops : deed.stops = false) :
    relay.Course (deeds ++ [deed]) := by
  obtain ⟨lives, held, ledger, account, holds⟩ := course.ledger
  have footing : (relay.live (deeds ++ [deed])).footing = (relay.live deeds).footing := by
    rw [live_concat]
    exact footing_does starts stops
  have isOpen : (relay.live (deeds ++ [deed])).isOpen = (relay.live deeds).isOpen := by
    rw [isOpen_eq, footing, ← isOpen_eq]
  refine ⟨footing ▸ course.placed, fun closed => ?shut, lives, held, ?ledger, ?account, ?holds⟩
  case shut =>
    have shut := course.shut (isOpen ▸ closed)
    rw [live_concat]
    cases deed with
    | refit failure line => exact shut
    | act act => exact (perform_quiet shut (by rintro tree rfl; exact nomatch starts)).shut
  case ledger => exact .idle ledger starts (by simp [stops])
  case account => rw [Relay.account, footing, ← account, Relay.account]
  case holds => rw [isOpen, holds]

end Course

theorem course_of_orderly (shut : relay.wayIn.Shut) (orderly : relay.Orderly deeds) :
    relay.Course deeds := by
  -- From the end: the last deed meets the relay to which the others have led.
  induction deeds using List.reverseRecOn with
  | nil => exact .begin shut
  | append_singleton before deed ih =>
      obtain ⟨orderly, closed⟩ := orderly_concat.mp orderly
      have course := ih orderly
      cases deed with
      | refit failure line => exact course.idle rfl rfl
      | act act =>
          cases act with
          | start tree => exact course.start tree (closed rfl)
          | stop => exact course.stop
          | _ => exact course.idle rfl rfl

/-- What a start that fails leaves: the relay as it was, of whose device no more can have been asked
than that it be opened and closed. Bytes are dropped, a consumer is done at once, and whatever comes
later goes as it would have gone without that start. -/
structure Spares (now failed : Relay) : Prop where
  same : ∃ asked ∈ [[], [.opened, .closed]],
    failed = { now with device := now.device.note asked }
  shut : failed.isOpen = false
  drops : ∀ raw, failed.forward raw =
    { next := failed
      records := [record Journal.debug ("Relay not started, dropping byte " ++ byteText raw)] }
  ends : failed.consume.received = failed.received ∧
    failed.consume.consumerEnded failed.consumers = true
  later : ∀ later, now.live later = (now.renewed.live later).after now.past ∧
    failed.live later = (now.renewed.live later).after failed.past
  again : ∀ failure line tree,
    ((failed.refit failure line).start tree).2 = ((now.refit failure line).start tree).2
  able : now.path = now.device.name → ∀ tree, ((failed.refit none {}).start tree).2.2 = none

theorem line_of_shut (shut : relay.wayIn.Shut) : relay.line = none := by
  simpa [wayIn] using shut.line

theorem live_renewed (shut : relay.wayIn.Shut) (later : List Deed) :
    relay.live later = (relay.renewed.live later).after relay.past := by
  rw [← live_after, renewed_after (line_of_shut shut) shut.waiting]

theorem start_renewed (shut : relay.wayIn.Shut) (tree : Filesystem) :
    (relay.start tree).2 = (relay.renewed.start tree).2 := by
  have same := start_after relay.renewed relay.past tree
  rw [renewed_after (line_of_shut shut) shut.waiting] at same
  rw [same]

theorem start_plain_device (relay : Relay) (device : relay.path = relay.device.name)
    (tree : Filesystem) : ((relay.refit none {}).start tree).2.2 = none := by
  simp [start, refit, device, Device.open]

theorem spares_start (shut : relay.wayIn.Shut) {tree : Filesystem} {error : StartError}
    (fails : (relay.start tree).2.2 = some error) : relay.Spares (relay.start tree).1 := by
  rcases relay.account_start tree with ⟨_, asked, among, failed, _⟩ | ⟨begun, _⟩
  · have closed := line_of_shut shut
    have nobody : relay.waiting = [] := shut.waiting
    let left : Relay := { relay with device := relay.device.note asked }
    have still : left.wayIn.Shut := shut
    rw [failed]
    refine ⟨⟨asked, among, rfl⟩, ?shut, fun raw => ?drops, ?ends,
      fun later => ⟨live_renewed shut later, live_renewed still later⟩,
      fun failure line tree => ?again, fun device => start_plain_device left device⟩
    case shut => simp [isOpen, closed]
    case drops => simp [forward, closed]
    case ends => simp [consume, settleEvents, isOpen, consumerEnded, closed, nobody]
    case again =>
      have before : (relay.refit failure line).wayIn.Shut := shut
      have after : (left.refit failure line).wayIn.Shut := shut
      exact (start_renewed after tree).trans (start_renewed before tree).symm
  · cases begun.symm.trans fails

/-- A relay is open from a start that has succeeded to the next stop. What a start opens is closed
by itself if it fails and else by that stop, and nothing else is ever closed. A start that fails
leaves the relay as it was, and a stop with nothing open closes nothing. After a stop a relay goes
on as a new one on the same device does: of the frames and events that were left nothing comes. -/
theorem closes_what_it_opens {relay : Relay} (fresh : relay.line = none)
    (alone : relay.waiting = []) {deeds : List Deed} (orderly : relay.Orderly deeds) :
    let now := relay.live deeds
    (now.isOpen = true ↔ relay.EndsStarted deeds) ∧
    (∃ lives held, relay.Ledger deeds lives held ∧
      now.account = relay.account.note (lives.flatten ++ held) ∧
      (∀ life ∈ lives, ∃ changes : List Terminal.Change,
        life = .opened :: changes.map .changed ++ [.closed]) ∧
      (now.isOpen = false ↔ held = [])) ∧
    (now.isOpen = false →
      (∀ tree error, (now.start tree).2.2 = some error →
        (now.start tree).2.1 = [] ∧ now.Spares (now.start tree).1) ∧
      now.stop.2 = [] ∧ now.stop.1.account = now.account) ∧
    now.stop.1.isOpen = false ∧ now.stop.1.received = now.received ∧
    ∀ later, now.stop.1.live later = (now.stop.1.renewed.live later).after now.stop.1.past := by
  intro now
  have shut : relay.wayIn.Shut := ⟨by simp [wayIn, fresh], alone⟩
  have course := course_of_orderly shut orderly
  obtain ⟨lives, held, ledger, account, holds⟩ := course.ledger
  refine ⟨holds.trans ledger.holds_iff,
    ⟨lives, held, ledger, account, ledger.lives_eq.1, ?none⟩,
    fun closed => ⟨fun tree error fails => ⟨?quiet, spares_start (course.shut closed) fails⟩,
      ?stops, ?asks⟩,
    isOpen_stop now, congrArg WayIn.received (wayIn_stop now),
    live_renewed ?after⟩
  case none => simpa using not_congr holds
  case quiet =>
    rcases now.start_footing tree with ⟨_, _, _, _, failed⟩ | ⟨done, _⟩
    · rw [failed]
    · rw [done] at fails
      cases fails
  case stops =>
    have line : now.line = none := by simpa [isOpen] using closed
    simp [stop, line]
  case asks => simp [account_stop course.placed, now, closed]
  case after =>
    rw [wayIn_stop]
    exact ⟨rfl, rfl⟩

/-- Of three starts the first finds no device and the second no attributes. The third begins a life
that leaves a frame, an event and half a line, and nothing of them comes after it. -/
theorem closes_what_it_opens_third_start :
    let terminal : Terminal.Line := { attributes := some {} }
    let relay : Relay := { path := "dev0", baudrate := 9600 }
    let refused : List Deed := [.refit (some 2) terminal, .act (.start .empty),
      .refit none { terminal with failure := some 25 }, .act (.start .empty)]
    let left := Event.keyUpWord ++ [0x20, 0x42, lineFeed] ++ Event.keyUpWord
    let deeds := refused ++ [.refit none terminal, .act (.start .empty), .act (.undergo .hold),
      .act (.forward 65), .act (.forward 66), .act (.undergo (.arrival (.bytes left)))]
    let ended := deeds ++ [.act .stop, .refit (some 2) terminal]
    let now := relay.live ended
    let again := [.refit none terminal, .act (.start .empty), .act .consume]
    relay.line = none ∧ relay.waiting = [] ∧ relay.Orderly deeds ∧ relay.Orderly ended ∧
      relay.EndsStarted deeds ∧
      (∃ lives, relay.Ledger ended lives [] ∧ now.account.calls = lives.flatten) ∧
      now.Spares (now.start .empty).1 ∧
      (now.stop.1.live again).received = [] ∧
      (now.stop.1.live again).device.written = frame 65 := by
  intro terminal relay refused left deeds ended now again
  have orderly : relay.Orderly deeds := by decide
  have orderly' : relay.Orderly ended := by decide
  have closed : now.isOpen = false := by decide
  have fails : ((relay.live ended).start .empty).2.2 = some (.system ⟨2, some "dev0"⟩) := by decide
  obtain ⟨opens, _⟩ := @closes_what_it_opens relay rfl rfl deeds orderly
  obtain ⟨_, ⟨lives, held, ledger, account, _, none'⟩, between, _, _, later⟩ :=
    @closes_what_it_opens relay rfl rfl ended orderly'
  obtain rfl : held = [] := none'.mp closed
  obtain ⟨spares, _⟩ := between closed
  have spared := (spares .empty _ fails).2
  have received : (now.stop.1.live again).received = [] := by
    rw [later again]
    decide
  have written : (now.stop.1.live again).device.written = frame 65 := by
    rw [later again]
    decide
  refine ⟨rfl, rfl, orderly, orderly', opens.mp (by decide), ⟨lives, ledger, ?_⟩, spared, received,
    written⟩
  rw [account, List.append_nil]
  rfl

end SteeringChannel.Relay
